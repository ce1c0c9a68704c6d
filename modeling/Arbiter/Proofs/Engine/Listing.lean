/-
# Listings of engines in use

Policy sets that operations make and policy sets in texts are well-formed, so those of an engine in
use are, whatever has been done with it (`Session.wellFormed_after`).  Hence a listing is complete
in every state that an engine can be in, and the policies that it names decide the requests of the
principal as all policies do (`Construction.listings_slice`).
-/
import Arbiter.Proofs.Authorization.Listing
import Arbiter.Proofs.Engine.Runs

namespace Arbiter

/-! ## 1. Policies of engines -/

/-- What a text gives is well-formed. -/
theorem PolicySet.wellFormed_of_parse {text : String} {ps : PolicySet} (h : parse text = .ok ps) :
    ps.WellFormed := by
  unfold parse at h
  split at h
  · rename_i j hj
    obtain ⟨raw, -, rfl⟩ := Option.map_eq_some_iff.mp hj
    exact (Loaded.of_ofJson raw.isSorted_sorted h).wellFormed
  · cases h

/-- A policy set that is given is one that operations make. -/
def Construction.Made : Construction → Prop
  | .ofPolicies ps _ => ps.Reachable
  | .ofTexts _ _ => True

/-- A policy set that is given is one that operations make. -/
def Operation.Made : Operation → Prop
  | .reload ps | .reloadWithSchema ps _ => ps.Reachable
  | .reloadParsed _ _ | .evaluate _ _ | .list _ _ _ => True

theorem Construction.Makes.wellFormed {c : Construction} {e : Engine} (h : c.Makes e)
    (hc : c.Made) : e.current.policies.WellFormed := by
  cases h with
  | ofPolicies _ => exact PolicySet.Reachable.wellFormed hc
  | ofText hps => exact PolicySet.wellFormed_of_parse hps
  | ofTexts hps _ _ => exact PolicySet.wellFormed_of_parse hps

namespace Operation

variable {op : Operation} {a : Answer} {e e' : Engine} {events : List Event}

theorem Does.wellFormed (h : op.Does e a e' events) (hop : op.Made)
    (he : e.current.policies.WellFormed) : e'.current.policies.WellFormed := by
  cases h with
  | reload _ => exact PolicySet.Reachable.wellFormed hop
  | reloadWithSchema _ => exact PolicySet.Reachable.wellFormed hop
  | reloadText hps _ => exact PolicySet.wellFormed_of_parse hps
  | reloadTexts hps _ _ => exact PolicySet.wellFormed_of_parse hps
  | evaluate _ _ => exact he
  | list => exact he

/-- One operation keeps the policies well-formed. -/
theorem wellFormed_act {s : Session} (hop : op.Made) (hs : s.current.policies.WellFormed) :
    (op.act.on s).2.current.policies.WellFormed := by
  rcases op.act_cases s with ⟨⟨cause, hact⟩, -⟩ | ⟨a, e, events, hdoes, hact⟩
  · rw [hact]
    exact hs
  · rw [hact]
    exact hdoes.wellFormed hop hs

/-- A listing leaves the session as it is. -/
theorem act_list (s : Session) (principal : EntityUid) (store : EntityStore)
    (filter : EffectFilter) : (list principal store filter).act.on s
      = (.ok (.listed (s.current.policies.matchesFor store principal filter)), s) := rfl

end Operation

/-- **The policies of an engine in use are well-formed.** -/
theorem Session.wellFormed_after {ops : List Operation} {s : Session}
    (hs : s.current.policies.WellFormed) (hops : ∀ op ∈ ops, op.Made) :
    (s.after ops).current.policies.WellFormed := by
  induction ops generalizing s with
  | nil => exact hs
  | cons op ops ih =>
    obtain ⟨hop, hops⟩ := List.forall_mem_cons.mp hops
    exact ih (Operation.wellFormed_act hop hs) hops

/-! ## 2. Listings -/

/-- **Listings are complete and sound slices.**  However an engine was made and whatever has been
done with it since, a listing gives just the policies of the effects that are asked for whose
principal constraint admits the principal, in the strict order of their ids, and changes nothing.
And the policies listed for the principal of a request make a set by themselves, which decides the
request as all policies do; so reasons and errors are listed. -/
theorem Construction.listings_slice {c : Construction} {o : Observer} {e : Engine} (hc : c.Made)
    (hmake : (c.make.on o).1 = .ok e) {ops : List Operation} (hops : ∀ op ∈ ops, op.Made) :
    let s := Session.after ⟨e, (c.make.on o).2⟩ ops
    (∀ principal store filter, ∃ found,
        (Operation.list principal store filter).act.on s = (.ok (.listed found), s) ∧
          s.current.policies.Lists store principal filter found) ∧
      ∀ request store, s.current.policies.Sliced request store := by
  intro s
  have hmakes : c.Makes e := by
    rw [on_make] at hmake
    cases hresult : c.result with
    | error cause =>
      rw [hresult] at hmake
      cases hmake
    | ok r =>
      rw [hresult] at hmake
      cases hmake
      exact (result_eq_ok_iff.mp hresult).1
  have hwell : s.current.policies.WellFormed :=
    Session.wellFormed_after (hmakes.wellFormed hc) hops
  constructor
  · intro principal store filter
    exact ⟨_, Operation.act_list s principal store filter, hwell.lists_matchesFor⟩
  · intro request store
    exact hwell.sliced request store

/-! ## 3. Two users -/

namespace Shuffled

open PolicySet.Shuffled

/-- Operations make the set: two links of one template and a static policy. -/
theorem reachable_made : made.Reachable := by
  have halice : Policy.ofLink History.share ⟨"alice"⟩ History.values
      = .ok ⟨History.share, some ⟨"alice"⟩, History.values⟩ := rfl
  have hbob : Policy.ofLink History.share ⟨"bob"⟩ (.ofList [(.principal, bob)])
      = .ok ⟨History.share, some ⟨"bob"⟩, .ofList [(.principal, bob)]⟩ := rfl
  have hpolicies : (Call.ofPolicies policies).Made := by
    simp only [Call.Made, policies, List.forall_mem_cons]
    exact ⟨.link halice, .static (t := History.badges) rfl, .link hbob, List.forall_mem_nil _⟩
  have hcall : (Call.ofPolicies policies).result .empty = .ok made :=
    Outcome.eq_ok_of_toOption (by decide +kernel)
  exact Call.reachable_result PolicySet.reachable_empty hpolicies hcall

/-- After a reload, one of the two links is listed for the user of the other and the request of that
user is decided without it. -/
theorem listings_slice_reloaded :
    let start : Session := ⟨⟨.of OneUser.openPolicies none⟩, none⟩
    let s := start.after [.reload made]
    (Construction.ofPolicies OneUser.openPolicies none).make.on none = (.ok start.toEngine, none) ∧
      s.current.policies = made ∧
      (made.matchesFor OneUser.store OneUser.alice .any).map PolicyMatch.policy
        = [⟨"alice"⟩, ⟨"badges"⟩] ∧
      made.Lists OneUser.store OneUser.alice .any
        (made.matchesFor OneUser.store OneUser.alice .any) ∧
      made.Sliced OneUser.request OneUser.store := by
  have hmake : (Construction.ofPolicies OneUser.openPolicies none).make.on none
      = (.ok ⟨.of OneUser.openPolicies none⟩, none) := rfl
  have hafter : Session.after ⟨⟨.of OneUser.openPolicies none⟩, none⟩ [.reload made]
      = ⟨⟨.of made none⟩, none⟩ :=
    congrArg Prod.snd (Operation.act_of_does (s := ⟨_, none⟩) (.reload PolicySet.fits_none))
  have hops : ∀ op ∈ [Operation.reload made], op.Made := by
    rw [List.forall_mem_singleton]
    exact reachable_made
  obtain ⟨hlists, hsliced⟩ := Construction.listings_slice (o := none)
    (c := .ofPolicies OneUser.openPolicies none) OneUser.reachable_openPolicies
    (congrArg Prod.fst hmake) hops
  rw [hmake, hafter] at hlists hsliced
  obtain ⟨_, ⟨⟩, hfound⟩ := hlists OneUser.alice OneUser.store .any
  refine ⟨hmake, ?_, by decide +kernel, hfound, hsliced OneUser.request OneUser.store⟩
  exact congrArg (fun s => s.current.policies) hafter

end Shuffled

end Arbiter
