/-
# Accepted schemas are closed

What every schema that is read from a document satisfies, as far as its declarations mention each
other (`Closed`): an action stands under its own uid and its uid is that of an action; parents of
a type, types that an action applies to and groups of an action are declared.

The first half comes from how declarations are read (`uid_of_reads`); the second half is what the
check of the references at the end requires.  `closed_of_ofJson` puts them together.
-/
import Arbiter.Proofs.Schema.Declarations

namespace Arbiter

open Outcome

/-! ## 1. Uids of actions -/

namespace EntityType

theorem cutLast?_append {r before after : List Char} (h : cutLast? r = some (before, after)) :
    ∀ l : List Char, cutLast? (l ++ r) = some (l ++ before, after)
  | [] => h
  | c :: l => by
    have hl : cutLast? (l ++ r) = some (l ++ before, after) := cutLast?_append h l
    rw [List.cons_append]
    unfold cutLast?
    rw [hl]
    rfl

/-- The actions of a namespace are actions, whatever the name of the namespace. -/
theorem isAction_actionIn (space : String) : (actionIn space).isAction = true := by
  have hplain : (⟨actionBasename⟩ : EntityType).isAction = true := by decide
  unfold actionIn qualified
  split
  · exact hplain
  · have hcut : cutLast? ("::" ++ actionBasename).toList = some ([], actionBasename.toList) := by
      decide
    have hname : cutLast? (space ++ "::" ++ actionBasename).toList
        = some (space.toList, actionBasename.toList) := by
      rw [String.append_assoc, String.toList_append, cutLast?_append hcut, List.append_nil]
    unfold isAction basename
    rw [hname]
    exact beq_iff_eq.mpr String.ofList_toList

end EntityType

/-! ## 2. References -/

namespace Schema

/-- The declarations of a schema mention nothing that is not declared, and each action stands
under its own uid. -/
structure Closed (s : Schema) : Prop where
  uid_eq : ∀ {u d}, s.action? u = some d → d.uid = u
  isAction : ∀ {u d}, s.action? u = some d → u.isAction = true
  parent : ∀ {t d}, s.entityType? t = some d → ∀ p ∈ d.memberOf, ∃ d', s.entityType? p = some d'
  group : ∀ {u d}, s.action? u = some d → ∀ g ∈ d.memberOf, ∃ d', s.action? g = some d'
  appliesTo : ∀ {u d}, s.action? u = some d → ∀ t, t ∈ d.principals ∨ t ∈ d.resources →
    ∃ d', s.entityType? t = some d'

/-- An action that was read stands under its own uid, which is that of an action. -/
theorem uid_of_reads {s : Schema} {l : List Declaration} (h : empty.Reads s l) {u : EntityUid}
    {d : ActionDecl} (hd : s.action? u = some d) : d.uid = u ∧ u.isAction = true := by
  rcases h.actions.find?_iff.mp hd with hempty | hdeclared
  · cases hempty
  · obtain ⟨x, -, hx⟩ := List.mem_filterMap.mp hdeclared
    cases x with
    | type r name doc => cases hx
    | action r id doc =>
      obtain ⟨decl, hdecl, heq⟩ := Option.map_eq_some_iff.mp hx
      cases heq
      exact ⟨Scoping.uid_actionDecl (eq_ok_of_toOption hdecl), EntityType.isAction_actionIn r.space⟩

/-- **A schema that is read from a document is closed.** -/
theorem closed_of_ofJson {j : Json} {s : Schema} (h : ofJson j = .ok s) : s.Closed := by
  obtain ⟨namespaces, -, hread, hcheck⟩ := ofJson_eq_ok_iff.mp h
  have hreads : empty.Reads s (declarationsOf namespaces) := reads_foldlM_declare hread
  obtain ⟨htypes, hactions⟩ := checkReferences_eq_ok_iff.mp hcheck
  constructor
  · intro u d hd
    exact (uid_of_reads hreads hd).1
  · intro u d hd
    exact (uid_of_reads hreads hd).2
  · intro t d hd p hp
    exact (htypes t d hd) p (.parent hp)
  · intro u d hd g hg
    exact (hactions u d hd).1 g hg
  · intro u d hd t ht
    rcases ht with ht | ht
    · exact (hactions u d hd).2 t (.principal ht)
    · exact (hactions u d hd).2 t (.resource ht)

end Schema

end Arbiter
