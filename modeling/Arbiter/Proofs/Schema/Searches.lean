/-
# What the searches of a schema find

A schema is made by adding declarations to the empty one (`Schema.Built`), also when it is read from
a document (`built_of_ofJson`), and what is added may mention anything.  So the parents of types
(`HasParentType`) and the groups of actions (`HasGroup`) may be any two graphs: with cycles, and with
names that are not declared, from which no step goes on.  In them

* a type can descend from the types to which zero or more steps lead from it
  (`canDescend_iff_reflTransGen`);
* the ancestors of an action are the ends of one or more steps from it
  (`mem_actionAncestors_iff_transGen`);
* the members of a group are the declared actions that are it or have it as an ancestor, each of
  them once (`mem_actionsIn_iff_transGen`, `nodup_uid_actionsIn`).

The two loops differ.  The one over types looks for one type, tests it before it is marked and stops
there (`exists_turns_canDescend`); the one over actions marks all that it comes to
(`exists_turns_actionAncestors`).  Both queue the successors of a node whether they have been marked
or not.  `hierarchies_searched` puts all this together.
-/
import Arbiter.Proofs.Schema.Hierarchy
import Arbiter.Proofs.Search

namespace Arbiter

open Outcome Relation

namespace Schema

variable {s s' : Schema}

/-! ## 1. The schemas that there are -/

/-- A schema to which declarations have been added one by one, whatever they mention. -/
inductive Built : Schema → Prop
  | empty : Built .empty
  | addEntityType {s s' : Schema} {t : EntityType} {d : EntityDecl} (hs : Built s)
    (h : s.addEntityType t d = .ok s') : Built s'
  | addAction {s s' : Schema} {d : ActionDecl} (hs : Built s)
    (h : s.addAction d = .ok s') : Built s'

/-- An action is added under its own uid. -/
theorem Built.uid_eq (hs : s.Built) {u : EntityUid} {d : ActionDecl} (hd : s.action? u = some d) :
    d.uid = u := by
  induction hs with
  | empty => cases hd
  | addEntityType _ h ih =>
    obtain ⟨-, rfl⟩ := addEntityType_eq_ok_iff.mp h
    exact ih hd
  | addAction _ h ih =>
    obtain ⟨-, rfl⟩ := addAction_eq_ok_iff.mp h
    rcases SortedMap.of_find?_insert hd with ⟨rfl, rfl⟩ | hd
    · rfl
    · exact ih hd

theorem Built.declare {x : Declaration} (hs : s.Built) (h : s.declare x = .ok s') : s'.Built := by
  cases x with
  | type r name doc =>
    obtain ⟨t, -, h⟩ := bind_eq_ok_iff.mp h
    obtain ⟨d, -, h⟩ := bind_eq_ok_iff.mp h
    exact hs.addEntityType h
  | action r id doc =>
    obtain ⟨d, -, h⟩ := bind_eq_ok_iff.mp h
    exact hs.addAction h

/-- A document is read by adding what it declares. -/
theorem built_of_ofJson {j : Json} (h : ofJson j = .ok s) : s.Built := by
  obtain ⟨namespaces, -, hread, -⟩ := ofJson_eq_ok_iff.mp h
  exact foldlM_invariant (fun _ _ _ _ hs h => hs.declare h) .empty hread

/-! ## 2. Parents of types -/

/-- `t` is declared with `p` among the types of its parents. -/
def HasParentType (s : Schema) (t p : EntityType) : Prop :=
  ∃ d, s.entityType? t = some d ∧ p ∈ d.memberOf

theorem expands_eq_hasParentType : Expands s.parentTypes s.entityTypes.keys = s.HasParentType := by
  funext t p
  exact propext expands_parentTypes_iff

theorem parentTypes_of_notMem {t : EntityType} (h : t ∉ s.entityTypes.keys) :
    s.parentTypes t = [] :=
  List.eq_nil_iff_forall_not_mem.mpr fun p hp => by
    obtain ⟨d, hd, -⟩ := mem_parentTypes_iff.mp hp
    exact h (SortedMap.mem_keys_iff.mpr ⟨d, hd⟩)

/-- **A type can descend from those to which steps to parents lead.** -/
theorem canDescend_iff_reflTransGen {t u : EntityType} :
    s.canDescend t u = true ↔ ReflTransGen s.HasParentType t u := by
  rw [← expands_eq_hasParentType]
  exact canDescend_iff

/-- **The loop that looks for a type ends with the answer**, after no more turns than all types have
parents together, and two. -/
theorem exists_turns_canDescend (s : Schema) (t u : EntityType) :
    ∃ n ≤ (s.entityTypes.keys.flatMap s.parentTypes).length + 2,
      (Seek.turn s.parentTypes Search.keepAll u)^[n] (.underWay ⟨[t], []⟩)
        = .answered (s.canDescend t u) := by
  obtain ⟨n, hn, hanswer⟩ :=
    Seek.exists_turns (fun _ _ _ => rfl) (fun _ => parentTypes_of_notMem (s := s)) [t] u
  rw [List.length_singleton] at hn
  exact ⟨n, by omega, hanswer⟩

/-! ## 3. Groups of actions -/

/-- `a` is declared with `g` among its groups. -/
def HasGroup (s : Schema) (a g : EntityUid) : Prop := ∃ d, s.action? a = some d ∧ g ∈ d.memberOf

theorem expands_eq_hasGroup : Expands s.groupsOf s.actions.keys = s.HasGroup := by
  funext a g
  exact propext expands_groupsOf_iff

theorem groupsOf_of_notMem {a : EntityUid} (h : a ∉ s.actions.keys) : s.groupsOf a = [] :=
  List.eq_nil_iff_forall_not_mem.mpr fun g hg => by
    obtain ⟨d, hd, -⟩ := mem_groupsOf_iff.mp hg
    exact h (SortedMap.mem_keys_iff.mpr ⟨d, hd⟩)

/-- **The ancestors of an action are the ends of one or more steps to groups.** -/
theorem mem_actionAncestors_iff_transGen {a g : EntityUid} :
    g ∈ s.actionAncestors a ↔ TransGen s.HasGroup a g := by
  rw [← SortedSet.contains_iff, mem_actionAncestors_iff, ActionPath, Path, expands_eq_hasGroup,
    TransGen.head'_iff]
  exact exists_congr fun q => and_congr_left fun _ => mem_groupsOf_iff

/-- **The loop that collects the ancestors of an action ends with them**, after no more turns than
the action has groups and all actions have together. -/
theorem exists_turns_actionAncestors (s : Schema) (a : EntityUid) :
    ∃ n ≤ (s.groupsOf a).length + (s.actions.keys.flatMap s.groupsOf).length, ∃ seen,
      (Search.turn s.groupsOf Search.keepAll)^[n] ⟨s.groupsOf a, []⟩ = ⟨[], seen⟩ ∧
        ∀ g, g ∈ seen ↔ g ∈ s.actionAncestors a := by
  obtain ⟨n, hn, seen, hended, hseen⟩ :=
    Search.exists_turns (fun _ _ _ => rfl) (fun _ => groupsOf_of_notMem (s := s)) (s.groupsOf a)
  refine ⟨n, hn, seen, hended, fun g => (hseen g).trans ?_⟩
  rw [actionAncestors, SortedSet.mem_ofList]

/-- **The members of a group are the declared actions that are it or from which one or more steps
lead to it.** -/
theorem mem_actionsIn_iff_transGen (hs : s.Built) {d : ActionDecl} {g : EntityUid} :
    d ∈ s.actionsIn g ↔ s.action? d.uid = some d ∧ (d.uid = g ∨ TransGen s.HasGroup d.uid g) := by
  rw [mem_actionsIn_iff hs.uid_eq, actionPath_iff, mem_actionAncestors_iff_transGen]

/-- A group has each member once. -/
theorem nodup_uid_actionsIn (hs : s.Built) (g : EntityUid) :
    ((s.actionsIn g).map ActionDecl.uid).Nodup := by
  have hdecls : (s.actionDecls.map ActionDecl.uid).Nodup := by
    rw [map_uid_actionDecls hs.uid_eq]
    exact SortedMap.nodup_keys _
  exact hdecls.sublist (List.filter_sublist.map ActionDecl.uid)

/-! ## 4. Both hierarchies -/

/-- **The searches of a schema end and are exact**, whatever graphs its declarations make: the number
of edges bounds the turns of both loops, the one over types ends with the answer whether steps to
parents lead from one type to another, the one over actions with the ends of the steps to groups;
and a group has just the declared actions that are it or lead to it, each once. -/
theorem hierarchies_searched (hs : s.Built) :
    (∀ t u, (s.canDescend t u = true ↔ ReflTransGen s.HasParentType t u) ∧
      ∃ n ≤ (s.entityTypes.keys.flatMap s.parentTypes).length + 2,
        (Seek.turn s.parentTypes Search.keepAll u)^[n] (.underWay ⟨[t], []⟩)
          = .answered (s.canDescend t u)) ∧
    (∀ a, (∀ g, g ∈ s.actionAncestors a ↔ TransGen s.HasGroup a g) ∧
      ∃ n ≤ (s.groupsOf a).length + (s.actions.keys.flatMap s.groupsOf).length, ∃ seen,
        (Search.turn s.groupsOf Search.keepAll)^[n] ⟨s.groupsOf a, []⟩ = ⟨[], seen⟩ ∧
          ∀ g, g ∈ seen ↔ g ∈ s.actionAncestors a) ∧
    ∀ g, ((s.actionsIn g).map ActionDecl.uid).Nodup ∧
      ∀ d, d ∈ s.actionsIn g ↔
        s.action? d.uid = some d ∧ (d.uid = g ∨ TransGen s.HasGroup d.uid g) :=
  ⟨fun t u => ⟨canDescend_iff_reflTransGen, exists_turns_canDescend s t u⟩,
    fun a => ⟨fun _ => mem_actionAncestors_iff_transGen, exists_turns_actionAncestors s a⟩,
    fun g => ⟨nodup_uid_actionsIn hs g, fun _ => mem_actionsIn_iff_transGen hs⟩⟩

end Schema

/-! Two types are parents of each other and one of them has a parent that is not declared; the same
holds of two actions.  A third action is in no group. -/

namespace Theatre

def player : EntityType := ⟨"Player"⟩

def troupe : EntityType := ⟨"Troupe"⟩

def house : EntityType := ⟨"House"⟩

def guild : EntityType := ⟨"Guild"⟩

def action (id : String) : EntityUid := ⟨⟨"Action"⟩, id⟩

def playerDecl : EntityDecl := { memberOf := .singleton troupe }

def troupeDecl : EntityDecl := { memberOf := .singleton house }

def houseDecl : EntityDecl := { memberOf := .ofList [troupe, guild] }

def rehearse : ActionDecl := { uid := action "rehearse", memberOf := .singleton (action "perform") }

def perform : ActionDecl :=
  { uid := action "perform", memberOf := .ofList [action "rehearse", action "appear"] }

def watch : ActionDecl := { uid := action "watch" }

def schema : Schema where
  entityTypes := .ofList [(player, playerDecl), (troupe, troupeDecl), (house, houseDecl)]
  actions := .ofList [(rehearse.uid, rehearse), (perform.uid, perform), (watch.uid, watch)]

theorem schema_built : schema.Built :=
  .addAction (d := watch) (.addAction (d := perform) (.addAction (d := rehearse)
    (.addEntityType (t := house) (d := houseDecl) (.addEntityType (t := troupe) (d := troupeDecl)
      (.addEntityType (t := player) (d := playerDecl) .empty rfl) rfl) rfl) rfl) rfl) rfl

theorem hasParentType_player : schema.HasParentType player troupe :=
  ⟨playerDecl, rfl, List.mem_singleton_self _⟩

theorem hasParentType_troupe : schema.HasParentType troupe house :=
  ⟨troupeDecl, rfl, List.mem_singleton_self _⟩

theorem hasParentType_house : schema.HasParentType house guild :=
  ⟨houseDecl, rfl, SortedSet.mem_ofList.mpr (by decide)⟩

theorem not_hasParentType_guild (t : EntityType) : ¬ schema.HasParentType guild t := by
  have hnone : schema.entityType? guild = none := rfl
  rintro ⟨d, hd, -⟩
  rw [hnone] at hd
  cases hd

theorem hasGroup_rehearse : schema.HasGroup rehearse.uid perform.uid :=
  ⟨rehearse, rfl, List.mem_singleton_self _⟩

theorem hasGroup_perform_rehearse : schema.HasGroup perform.uid rehearse.uid :=
  ⟨perform, rfl, SortedSet.mem_ofList.mpr (by decide)⟩

theorem hasGroup_perform_appear : schema.HasGroup perform.uid (action "appear") :=
  ⟨perform, rfl, SortedSet.mem_ofList.mpr (by decide)⟩

theorem not_hasGroup_watch (g : EntityUid) : ¬ schema.HasGroup watch.uid g := by
  have hwatch : schema.action? watch.uid = some watch := rfl
  rintro ⟨d, hd, hg⟩
  rw [hwatch] at hd
  cases hd
  cases hg

/-- What is not declared is found over a cycle, and leads nowhere; the actions on the cycle are their
own ancestors, and members of the group that is not declared. -/
theorem hierarchies_searched_theatre : schema.Built ∧
    (schema.canDescend player guild = true ∧ schema.canDescend guild player = false) ∧
    (∃ n ≤ 6, (Seek.turn schema.parentTypes Search.keepAll guild)^[n] (.underWay ⟨[player], []⟩)
      = .answered true) ∧
    (rehearse.uid ∈ schema.actionAncestors rehearse.uid ∧
      action "appear" ∈ schema.actionAncestors rehearse.uid) ∧
    (rehearse ∈ schema.actionsIn (action "appear") ∧
      watch ∉ schema.actionsIn (action "appear")) := by
  obtain ⟨htypes, hactions, hmembers⟩ := Schema.hierarchies_searched schema_built
  have hguild : schema.canDescend player guild = true := by
    rw [(htypes player guild).1]
    exact ((ReflTransGen.single hasParentType_player).tail hasParentType_troupe).tail
      hasParentType_house
  have happear : TransGen schema.HasGroup rehearse.uid (action "appear") :=
    (TransGen.single hasGroup_rehearse).tail hasGroup_perform_appear
  refine ⟨schema_built, ⟨hguild, ?_⟩, ?_, ⟨?_, ?_⟩, ?_, ?_⟩
  · rw [Bool.eq_false_iff, ne_eq, (htypes guild player).1]
    intro hpath
    rcases hpath.cases_head with heq | ⟨t, ht, -⟩
    · exact absurd heq (by decide)
    · exact not_hasParentType_guild t ht
  · obtain ⟨n, hn, hanswer⟩ := (htypes player guild).2
    rw [hguild] at hanswer
    exact ⟨n, hn, hanswer⟩
  · exact ((hactions rehearse.uid).1 _).mpr
      ((TransGen.single hasGroup_rehearse).tail hasGroup_perform_rehearse)
  · exact ((hactions rehearse.uid).1 _).mpr happear
  · exact ((hmembers (action "appear")).2 rehearse).mpr ⟨rfl, Or.inr happear⟩
  · intro hwatch
    rcases (((hmembers (action "appear")).2 watch).mp hwatch).2 with heq | hpath
    · exact absurd heq (by decide)
    · obtain ⟨g, hg, -⟩ := TransGen.head'_iff.mp hpath
      exact not_hasGroup_watch g hg

end Theatre

end Arbiter
