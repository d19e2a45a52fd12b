import Mathlib.Data.List.Basic
import Mathlib.Logic.Relation

/-!
# Worklists

A finite relation is a list of edges. A traversal from a vertex has visited some vertices, and a
queue holds those to visit next. It takes the first one off the queue; if that has not been visited,
it visits it and queues its targets that have not been visited either.

* `Traversal`: what holds of the two lists throughout. `Traversal.skip` and `Traversal.visit`: the
  two steps keep it.
* `Traversal.done`: when the queue is empty, what can be reached has been visited, and nothing else.
* `remaining`: every step makes it smaller.
-/

namespace Graph

open Relation

variable {V : Type*} [DecidableEq V] {edges : List (V × V)} {start v w : V} {visited queue : List V}

/-- The targets of the edges from a vertex. -/
def targets (edges : List (V × V)) (v : V) : List V :=
  (edges.filter fun e => e.1 = v).map Prod.snd

def Edge (edges : List (V × V)) (v w : V) : Prop := (v, w) ∈ edges

theorem mem_targets : w ∈ targets edges v ↔ Edge edges v w := by
  rw [targets, List.mem_map]
  constructor
  · rintro ⟨⟨v', w'⟩, he, rfl⟩
    obtain ⟨hmem, hv⟩ := List.mem_filter.mp he
    cases of_decide_eq_true hv
    exact hmem
  · intro h
    exact ⟨(v, w), List.mem_filter.mpr ⟨h, decide_eq_true rfl⟩, rfl⟩

/-- The queue after a vertex has been visited. -/
def enqueue (edges : List (V × V)) (visited queue : List V) (v : V) : List V :=
  queue ++ (targets edges v).filter fun w => w ∉ v :: visited

/-- Whatever is visited or queued can be reached. The start is visited or queued, and so are the
targets of what is visited. -/
structure Traversal (edges : List (V × V)) (start : V) (visited queue : List V) : Prop where
  reached : ∀ v ∈ visited ++ queue, ReflTransGen (Edge edges) start v
  started : start ∈ visited ++ queue
  closed : ∀ v ∈ visited, ∀ w ∈ targets edges v, w ∈ visited ++ queue

theorem Traversal.begin : Traversal edges start [] [start] where
  reached v hv := by
    rw [List.mem_singleton.mp hv]
  started := List.mem_singleton_self start
  closed _ hv := nomatch hv

/-- A vertex that has been visited is taken off the queue. -/
theorem Traversal.skip (h : Traversal edges start visited (v :: queue)) (hv : v ∈ visited) :
    Traversal edges start visited queue := by
  have hsame (w : V) : w ∈ visited ++ v :: queue ↔ w ∈ visited ++ queue := by
    rw [List.mem_append, List.mem_cons, List.mem_append]
    constructor
    · rintro (hw | rfl | hw)
      · exact .inl hw
      · exact .inl hv
      · exact .inr hw
    · exact Or.imp_right .inr
  refine ⟨fun w hw => h.reached w ((hsame w).mpr hw), (hsame start).mp h.started, ?_⟩
  exact fun u hu w hw => (hsame w).mp (h.closed u hu w hw)

/-- The first vertex of the queue is visited. -/
theorem Traversal.visit (h : Traversal edges start visited (v :: queue)) :
    Traversal edges start (v :: visited) (enqueue edges visited queue v) := by
  have hv : ReflTransGen (Edge edges) start v :=
    h.reached v (List.mem_append_right _ List.mem_cons_self)
  have hkept {w : V} (hw : w ∈ visited ++ v :: queue) :
      w ∈ v :: visited ++ enqueue edges visited queue v := by
    rw [List.mem_append, List.mem_cons] at hw
    rw [List.mem_append, List.mem_cons, enqueue, List.mem_append]
    tauto
  refine ⟨fun w hw => ?_, hkept h.started, fun u hu w hw => ?_⟩
  · rcases List.mem_append.mp hw with hvisited | hqueued
    · rcases List.mem_cons.mp hvisited with rfl | hvisited
      · exact hv
      · exact h.reached w (List.mem_append_left _ hvisited)
    · rcases List.mem_append.mp hqueued with hqueued | hnew
      · exact h.reached w (List.mem_append_right _ (List.mem_cons_of_mem v hqueued))
      · exact hv.tail (mem_targets.mp (List.mem_of_mem_filter hnew))
  · rcases List.mem_cons.mp hu with rfl | hu
    · by_cases hvisited : w ∈ u :: visited
      · exact List.mem_append_left _ hvisited
      · refine List.mem_append_right _ (List.mem_append_right _ (List.mem_filter.mpr ⟨hw, ?_⟩))
        exact decide_eq_true hvisited
    · exact hkept (h.closed u hu w hw)

/-- A traversal with nothing left has visited what can be reached. -/
theorem Traversal.done (h : Traversal edges start visited []) :
    v ∈ visited ↔ ReflTransGen (Edge edges) start v := by
  have hnil := List.append_nil visited
  constructor
  · exact fun hv => h.reached v (hnil.symm ▸ hv)
  · intro hpath
    induction hpath with
    | refl => exact hnil ▸ h.started
    | tail _ hedge ih => exact hnil ▸ h.closed _ ih _ (mem_targets.mpr hedge)

/-! ## How long it takes -/

/-- The edges from vertices that have not been visited, and what is queued. -/
def remaining (edges : List (V × V)) (visited queue : List V) : Nat :=
  (edges.filter fun e => e.1 ∉ visited).length + queue.length

theorem remaining_skip : remaining edges visited (v :: queue) = remaining edges visited queue + 1 :=
  rfl

theorem remaining_visit (hv : v ∉ visited) :
    remaining edges (v :: visited) (enqueue edges visited queue v) <
      remaining edges visited (v :: queue) := by
  -- The edges of the vertex are no longer counted.
  have hedges : (edges.filter fun e => e.1 ∉ visited).length =
      (targets edges v).length + (edges.filter fun e => e.1 ∉ v :: visited).length := by
    rw [List.length_eq_countP_add_countP fun e : V × V => e.1 = v, List.countP_filter,
      List.countP_filter, targets, List.length_map, ← List.countP_eq_length_filter,
      ← List.countP_eq_length_filter]
    congr 1
    · refine List.countP_congr fun e _ => ?_
      rw [Bool.and_eq_true, decide_eq_true_iff, decide_eq_true_iff, and_iff_left_iff_imp]
      rintro rfl
      exact hv
    · refine List.countP_congr fun e _ => ?_
      rw [Bool.and_eq_true, decide_eq_true_iff, decide_eq_true_iff, decide_eq_true_iff,
        decide_eq_true_iff, List.mem_cons, not_or]
  have hqueued : (enqueue edges visited queue v).length ≤
      queue.length + (targets edges v).length := by
    rw [enqueue, List.length_append]
    exact Nat.add_le_add_left (List.length_filter_le _ _) _
  rw [remaining, remaining, List.length_cons]
  omega

end Graph
