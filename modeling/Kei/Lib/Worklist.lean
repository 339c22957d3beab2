import Mathlib.Data.List.Basic
import Mathlib.Logic.Relation

/-!
# Kei.Lib.Worklist

A walk over a graph that is read as the walk goes, with a stack of nodes that
are still to be read.

A node is read once, and not more than a limit of them, so that the walk ends
on every graph.  When it is accepted it has read just what can be reached.
-/

namespace Worklist

variable {α β ε : Type}

/-- What has been read, the last node first, and what was found in it. -/
def walk [DecidableEq α] (read : α → Except ε (List α × List β)) (limit : Nat) (tooMany : ε) :
    List α → List α → List β → List α × Except ε (List β)
  | [], visited, found => (visited, .ok found)
  | node :: pending, visited, found =>
      if node ∈ visited then walk read limit tooMany pending visited found
      else if limit < visited.length + 1 then (visited, .error tooMany)
      else
        match read node with
        | .error e => (node :: visited, .error e)
        | .ok (next, new) =>
            walk read limit tooMany (next ++ pending) (node :: visited) (found ++ new)
termination_by pending visited _ => (limit - visited.length, pending.length)
decreasing_by
  · exact Prod.Lex.right _ (Nat.lt_succ_self _)
  · exact Prod.Lex.left _ _ (by simp only [List.length_cons]; omega)

variable {read : α → Except ε (List α × List β)} {limit : Nat} {tooMany : ε}
  {pending visited : List α} {found result : List β}

/-- What was found in the nodes is among what is found, and what they lead to is read or
waits. -/
def Underway (read : α → Except ε (List α × List β)) (pending visited : List α)
    (found : List β) : Prop :=
  ∀ node ∈ visited, ∃ next new, read node = .ok (next, new) ∧
    (∀ b ∈ new, b ∈ found) ∧ ∀ other ∈ next, other ∈ visited ∨ other ∈ pending

theorem Underway.start {root : α} : Underway read [root] [] found :=
  fun _ h => nomatch h

theorem Underway.skip {node : α} (h : Underway read (node :: pending) visited found)
    (hold : node ∈ visited) : Underway read pending visited found := by
  intro earlier hearlier
  obtain ⟨next, new, hread, hnew, hnext⟩ := h earlier hearlier
  refine ⟨next, new, hread, hnew, fun other hother => ?_⟩
  rcases hnext other hother with hvisited | hpending
  · exact .inl hvisited
  · rcases List.mem_cons.mp hpending with rfl | hlater
    · exact .inl hold
    · exact .inr hlater

theorem Underway.step {node : α} {next : List α} {new : List β}
    (h : Underway read (node :: pending) visited found) (hread : read node = .ok (next, new)) :
    Underway read (next ++ pending) (node :: visited) (found ++ new) := by
  intro earlier hearlier
  rcases List.mem_cons.mp hearlier with rfl | hvisited
  · exact ⟨next, new, hread, fun b hb => List.mem_append_right _ hb,
      fun other hother => .inr (List.mem_append_left _ hother)⟩
  · obtain ⟨next', new', hread', hnew, hnext⟩ := h earlier hvisited
    refine ⟨next', new', hread', fun b hb => List.mem_append_left _ (hnew b hb),
      fun other hother => ?_⟩
    rcases hnext other hother with hold | hpending
    · exact .inl (List.mem_cons_of_mem _ hold)
    · rcases List.mem_cons.mp hpending with rfl | hlater
      · exact .inl List.mem_cons_self
      · exact .inr (List.mem_append_right _ hlater)

variable [DecidableEq α]

/-- **No node is read twice, and not more than the limit**, on every graph. -/
theorem walk_visited (hnodup : visited.Nodup) (hlimit : visited.length ≤ limit) :
    (walk read limit tooMany pending visited found).1.Nodup ∧
      (walk read limit tooMany pending visited found).1.length ≤ limit := by
  fun_induction walk read limit tooMany pending visited found with
  | case1 visited found => exact ⟨hnodup, hlimit⟩
  | case2 node pending visited found hold ih => exact ih hnodup hlimit
  | case3 node pending visited found hnew hmany => exact ⟨hnodup, hlimit⟩
  | case4 node pending visited found hnew hmany e hread =>
      exact ⟨List.nodup_cons.mpr ⟨hnew, hnodup⟩, Nat.le_of_not_lt hmany⟩
  | case5 node pending visited found hnew hmany next new hread ih =>
      exact ih (List.nodup_cons.mpr ⟨hnew, hnodup⟩) (Nat.le_of_not_lt hmany)

theorem walk_underway (h : Underway read pending visited found)
    (hok : (walk read limit tooMany pending visited found).2 = .ok result) :
    Underway read [] (walk read limit tooMany pending visited found).1 result ∧
      ∀ node, node ∈ visited ∨ node ∈ pending →
        node ∈ (walk read limit tooMany pending visited found).1 := by
  fun_induction walk read limit tooMany pending visited found with
  | case1 visited found =>
      cases hok
      exact ⟨h, fun node hnode => hnode.resolve_right (List.not_mem_nil)⟩
  | case2 node pending visited found hold ih =>
      obtain ⟨hclosed, hall⟩ := ih (h.skip hold) hok
      refine ⟨hclosed, fun other hother => hall other ?_⟩
      rcases hother with hvisited | hpending
      · exact .inl hvisited
      · rcases List.mem_cons.mp hpending with rfl | hlater
        · exact .inl hold
        · exact .inr hlater
  | case3 node pending visited found hnew hmany => cases hok
  | case4 node pending visited found hnew hmany e hread => cases hok
  | case5 node pending visited found hnew hmany next new hread ih =>
      obtain ⟨hclosed, hall⟩ := ih (h.step hread) hok
      refine ⟨hclosed, fun other hother => hall other ?_⟩
      rcases hother with hvisited | hpending
      · exact .inl (List.mem_cons_of_mem _ hvisited)
      · rcases List.mem_cons.mp hpending with rfl | hlater
        · exact .inl List.mem_cons_self
        · exact .inr (List.mem_append_right _ hlater)

/-- What holds of the nodes that wait, and is passed on by reading, holds of all that are read. -/
theorem walk_keeps {P : α → Prop}
    (hread : ∀ node next new, P node → read node = .ok (next, new) → ∀ other ∈ next, P other)
    (hvisited : ∀ node ∈ visited, P node) (hpending : ∀ node ∈ pending, P node) :
    ∀ node ∈ (walk read limit tooMany pending visited found).1, P node := by
  fun_induction walk read limit tooMany pending visited found with
  | case1 visited found => exact hvisited
  | case2 node pending visited found hold ih =>
      exact ih hvisited (List.forall_mem_cons.mp hpending).2
  | case3 node pending visited found hnew hmany => exact hvisited
  | case4 node pending visited found hnew hmany e hfails =>
      exact List.forall_mem_cons.mpr ⟨(List.forall_mem_cons.mp hpending).1, hvisited⟩
  | case5 node pending visited found hnew hmany next new hok ih =>
      obtain ⟨hnode, hlater⟩ := List.forall_mem_cons.mp hpending
      exact ih (List.forall_mem_cons.mpr ⟨hnode, hvisited⟩)
        (List.forall_mem_append.mpr ⟨hread node next new hnode hok, hlater⟩)

/-- **An accepted walk has read what can be reached**, and nothing else. -/
theorem mem_walk_iff {leads : α → α → Prop} {root node : α}
    (hleads : ∀ node next new, read node = .ok (next, new) →
      ∀ other, other ∈ next ↔ leads node other)
    (hok : (walk read limit tooMany [root] [] found).2 = .ok result) :
    node ∈ (walk read limit tooMany [root] [] found).1 ↔
      Relation.ReflTransGen leads root node := by
  obtain ⟨hclosed, hall⟩ := walk_underway .start hok
  constructor
  · refine walk_keeps (fun node next new hnode hread other hother => ?_) (fun _ h => nomatch h)
      (fun node hnode => ?_) node
    · exact hnode.tail ((hleads node next new hread other).mp hother)
    · rw [List.mem_singleton.mp hnode]
  · intro hreach
    induction hreach with
    | refl => exact hall root (.inr (List.mem_singleton_self root))
    | tail _ hstep ih =>
        obtain ⟨next, new, hread, -, hnext⟩ := hclosed _ ih
        exact (hnext _ ((hleads _ next new hread _).mpr hstep)).resolve_right List.not_mem_nil

end Worklist
