/-
# The environments of a template cover the requests that its policies match

Validation checks the conditions of a template in the environments that its scope admits, and it
finds them without a store, from declared types and groups.  Over a store that the schema
describes nothing is missed: when the scope of a policy matches a request that the schema admits,
the types of principal and resource and the action of the request are one of the environments
(`mem_environments_of_scopeMatches`).

Each constraint is one case (`admits_of_meets`, `mem_admittedActions`).  What takes an argument is
`in`: the path of parents in the store goes along with a path in the schema
(`Schema.Describes.typePath`, `Schema.Describes.actionPath`).
-/
import Arbiter.Proofs.Authorization.Scope
import Arbiter.Proofs.Store.Described
import Arbiter.Validation.Basic

namespace Arbiter

section

variable {s : Schema} {store : EntityStore} {p : Policy}

/-- The environment that a request is in, when its action is declared. -/
def Request.env (r : Request) (d : ActionDecl) : RequestEnv where
  principal := r.principal.type
  action := r.action
  resource := r.resource.type
  context := .record (Ty.shapeOf d.context)

/-! ## 1. Constraints on principal and resource -/

namespace ScopeConstraint

theorem canBeIn_of_isDescendant (hd : s.Describes store) {uid u : EntityUid} {decl : EntityDecl}
    (huid : s.entityType? uid.type = some decl) (hin : store.isDescendant uid u = true)
    {r : EntityRef} (hr : p.resolve r = .ok u) : canBeIn s uid.type r = true := by
  cases r with
  | slot _ => rfl
  | uid v =>
    cases hr
    exact Schema.canDescend_iff.mpr (hd.typePath huid (EntityStore.isDescendant_iff.mp hin))

/-- A constraint that an entity of a declared type meets admits its type. -/
theorem admits_of_meets (hd : s.Describes store) {uid : EntityUid} {decl : EntityDecl}
    (huid : s.entityType? uid.type = some decl) {c : ScopeConstraint}
    (hc : c.Meets p store uid) : c.admits s uid.type = true := by
  cases c with
  | any => rfl
  | isType t => exact beq_iff_eq.mpr hc.symm
  | eq r =>
    cases r with
    | slot _ => rfl
    | uid v =>
      cases hc
      exact beq_self_eq_true _
  | isIn r =>
    obtain ⟨u, hr, hin⟩ := hc
    exact canBeIn_of_isDescendant hd huid hin hr
  | isTypeIn t r =>
    obtain ⟨ht, u, hr, hin⟩ := hc
    rw [admits, Bool.and_eq_true]
    exact ⟨beq_iff_eq.mpr ht.symm, canBeIn_of_isDescendant hd huid hin hr⟩

end ScopeConstraint

/-! ## 2. Constraints on the action -/

namespace Template

variable {t : Template}

/-- A constraint that a declared action meets admits its declaration. -/
theorem mem_admittedActions (hd : s.Describes store) {a : EntityUid} {decl : ActionDecl}
    (ha : s.action? a = some decl) (hmeets : t.action.Meets store a) :
    decl ∈ t.admittedActions s := by
  have huid : decl.uid = a := hd.closed.uid_eq ha
  unfold admittedActions
  cases haction : t.action with
  | any =>
    rw [Schema.mem_actionDecls_iff hd.closed.uid_eq, huid]
    exact ha
  | eq u =>
    rw [haction] at hmeets
    have hu : u = a := hmeets
    show decl ∈ (s.action? u).toList
    rw [hu, ha]
    exact List.mem_singleton_self _
  | isIn groups =>
    rw [haction] at hmeets
    obtain ⟨g, hg, hin⟩ := hmeets
    have hpath : s.ActionPath decl.uid g := by
      rw [huid]
      exact hd.actionPath ha (EntityStore.isDescendant_iff.mp hin)
    have hdecl : s.action? decl.uid = some decl := by rw [huid]; exact ha
    have hmem : decl ∈ s.actionsIn g :=
      (Schema.mem_actionsIn_iff hd.closed.uid_eq).mpr ⟨hdecl, hpath⟩
    refine List.mem_filterMap.mpr ⟨decl.uid, ?_, hdecl⟩
    rw [List.mem_eraseDups, List.mem_flatMap]
    exact ⟨g, hg, List.mem_map_of_mem hmem⟩

/-! ## 3. Environments -/

theorem mem_environmentsOf {decl : ActionDecl} {principal resource : EntityType}
    (hp : principal ∈ decl.principals) (hpa : t.principal.admits s principal = true)
    (hr : resource ∈ decl.resources) (hra : t.resource.admits s resource = true) :
    ⟨principal, decl.uid, resource, .record (Ty.shapeOf decl.context)⟩
      ∈ t.environmentsOf s decl := by
  unfold environmentsOf
  rw [List.mem_flatMap]
  exact ⟨principal, List.mem_filter.mpr ⟨hp, hpa⟩,
    List.mem_map_of_mem (List.mem_filter.mpr ⟨hr, hra⟩)⟩

/-- A request that is admitted and that the scope of a policy matches is in one of the
environments of its template. -/
theorem env_mem_environments (hd : s.Describes store) {r : Request} {decl : ActionDecl}
    (ha : s.action? r.action = some decl) (hp : r.principal.type ∈ decl.principals)
    (hr : r.resource.type ∈ decl.resources) (hmatch : p.scopeMatches r store = .ok true) :
    r.env decl ∈ p.template.environments s := by
  obtain ⟨hprincipal, haction, hresource⟩ := Policy.scopeMatches_eq_true_iff.mp hmatch
  obtain ⟨pd, hpd⟩ := hd.closed.appliesTo ha _ (Or.inl hp)
  obtain ⟨rd, hrd⟩ := hd.closed.appliesTo ha _ (Or.inr hr)
  unfold environments
  rw [List.mem_flatMap]
  refine ⟨decl, mem_admittedActions hd ha haction, ?_⟩
  have hmem := mem_environmentsOf hp (ScopeConstraint.admits_of_meets hd hpd hprincipal) hr
    (ScopeConstraint.admits_of_meets hd hrd hresource)
  rw [hd.closed.uid_eq ha] at hmem
  exact hmem

/-- **No run-time match is missed.**  Over a store that is built with a schema from entities
without actions, a request that the schema admits and that the scope of a policy matches, static
or linked, is in one of the environments in which the template of the policy is checked. -/
theorem mem_environments_of_scopeMatches {j : Json} {s : Schema} {es : List Entity}
    {store : EntityStore} {r : Request} {p : Policy} (hs : Schema.ofJson j = .ok s)
    (htypes : ∀ t, s.entityTypes.contains t = true → t.isAction = false)
    (hes : ∀ e ∈ es, e.uid.isAction = false) (hstore : EntityStore.withSchema s es = .ok store)
    (hreq : s.validateRequest r = .ok ()) (hmatch : p.scopeMatches r store = .ok true) :
    ∃ env ∈ p.template.environments s, env.principal = r.principal.type ∧
      env.action = r.action ∧ env.resource = r.resource.type := by
  obtain ⟨decl, ha, hp, hr, -⟩ := Schema.validateRequest_eq_ok hreq
  exact ⟨r.env decl,
    env_mem_environments (Schema.describes_withSchema hs htypes hes hstore) ha hp hr hmatch,
    rfl, rfl, rfl⟩

end Template

end

/-! ## 4. An office

Users are in groups, groups in firms, and who may view a document may be asked through groups of
actions.  The policy `planPolicy` goes two steps up in both hierarchies and leaves the resource to
its link. -/

namespace Office

def user : EntityType := ⟨"User"⟩

def group : EntityType := ⟨"Group"⟩

def firm : EntityType := ⟨"Firm"⟩

def doc : EntityType := ⟨"Doc"⟩

def action (id : String) : EntityUid := ⟨⟨"Action"⟩, id⟩

/-- A document that only names things. -/
def names (l : List String) : Json := .array (l.map Json.string)

def schemaDocument : Json :=
  .object [("", .object [
    ("entityTypes", .object [
      ("User", .object [("memberOfTypes", names ["Group"])]),
      ("Group", .object [("memberOfTypes", names ["Firm"])]),
      ("Firm", .object []),
      ("Doc", .object [("shape", .object [
        ("type", .string "Record"),
        ("attributes", .object [
          ("level", .object [("type", .string "Long"), ("required", .bool false)]),
          ("owner", .object [("type", .string "Entity"), ("name", .string "User")])])])])]),
    ("actions", .object [
      ("view", .object [
        ("memberOf", .array [.object [("id", .string "read")]]),
        ("appliesTo", .object [
          ("principalTypes", names ["User"]), ("resourceTypes", names ["Doc"])])]),
      ("read", .object [("memberOf", .array [.object [("id", .string "all")]])]),
      ("all", .object [])])])]

def docShape : RecordType :=
  ⟨[("level", ⟨.long, false⟩), ("owner", ⟨.entity user, true⟩)], false⟩

def schema : Schema where
  entityTypes := .ofList [
    (user, { memberOf := .singleton group }),
    (group, { memberOf := .singleton firm }),
    (firm, {}),
    (doc, { shape := docShape })]
  actions := .ofList [
    (action "view", {
      uid := action "view"
      memberOf := .singleton (action "read")
      principals := .singleton user
      resources := .singleton doc }),
    (action "read", { uid := action "read", memberOf := .singleton (action "all") }),
    (action "all", { uid := action "all" })]

theorem schema_ofJson : Schema.ofJson schemaDocument = .ok schema := by rfl

theorem schema_noActionType (t : EntityType) (ht : schema.entityTypes.contains t = true) :
    t.isAction = false := by
  have hall : ∀ e ∈ schema.entityTypes.entries, e.1.isAction = false := by decide
  obtain ⟨d, hd⟩ := SortedMap.contains_iff.mp ht
  exact hall (t, d) (SortedMap.mem_entries_iff.mpr hd)

def alice : EntityUid := ⟨user, "alice"⟩

def staff : EntityUid := ⟨group, "staff"⟩

def acme : EntityUid := ⟨firm, "acme"⟩

def plan : EntityUid := ⟨doc, "plan"⟩

def entities : List Entity := [
  { uid := alice, parents := .singleton staff },
  { uid := staff, parents := .singleton acme },
  { uid := plan, attrs := .ofList [("level", .long 3), ("owner", .entity alice)] }]

def store : EntityStore := ⟨entities ++ schema.actionEntities, true, by decide⟩

theorem store_withSchema : EntityStore.withSchema schema entities = .ok store := by rfl

theorem entities_noAction : ∀ e ∈ entities, e.uid.isAction = false := by decide

def request : Request where
  principal := alice
  action := action "view"
  resource := plan

theorem request_valid : schema.validateRequest request = .ok () := by rfl

def planTemplate : Template where
  id := ⟨"members"⟩
  effect := .permit
  principal := .isIn (.uid acme)
  action := .isIn [action "all"]
  resource := .eq (.slot .resource)

def planPolicy : Policy := ⟨planTemplate, some ⟨"plan"⟩, .ofList [(.resource, plan)]⟩

theorem mem_environments_office :
    planPolicy.scopeMatches request store = .ok true ∧
      ∃ env ∈ planTemplate.environments schema, env.principal = user ∧
        env.action = action "view" ∧ env.resource = doc := by
  have hprincipal : store.isDescendant alice acme = true :=
    EntityStore.isDescendant_of_parent (p := staff) rfl rfl
      (EntityStore.isDescendant_of_parent rfl rfl EntityStore.isDescendant_self)
  have haction : store.isDescendant (action "view") (action "all") = true :=
    EntityStore.isDescendant_of_parent (p := action "read") rfl rfl
      (EntityStore.isDescendant_of_parent rfl rfl EntityStore.isDescendant_self)
  have hmatch : planPolicy.scopeMatches request store = .ok true :=
    Policy.scopeMatches_eq_true_iff.mpr
      ⟨⟨acme, rfl, hprincipal⟩, ⟨action "all", List.mem_singleton_self _, haction⟩, rfl⟩
  exact ⟨hmatch, Template.mem_environments_of_scopeMatches schema_ofJson schema_noActionType
    entities_noAction store_withSchema request_valid hmatch⟩

end Office

end Arbiter
