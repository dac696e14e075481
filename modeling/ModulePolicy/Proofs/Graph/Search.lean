/-
# Breadth-first search

What holds at every step of a search, and why that makes its distances exact.

`Finds` says what looking at the neighbours of one node does: those not found
before, each once, get the next distance and go to the end of the queue. From
this the invariant of the loop follows (`Invariant`):

* every recorded distance is the length of a walk, and within the radius;
* the queue is ascending, and nothing found is more than one step beyond its
  first node;
* a node that has left the queue inside the radius has all its neighbours found,
  at most one step further.

The last point, once the queue is empty, bounds the recorded distances by every
walk (`Invariant.exists_le`). The nodes not yet found together with the queue
become one fewer in every step (`pending_step`), so as many steps as there are
nodes empty the queue (`queue_run_start`).
-/

import ModulePolicy.Proofs.Graph.Walk

namespace ModulePolicy
namespace Search

variable {g : PolicyGraph} {seeds : List String} {radius : Nat} {s t : Search}

/-! ### Finding the neighbours of a node -/

/-- From `s` to `t` the nodes of `fresh` were found at a distance: those of
`nodes` that `s` had not found. -/
structure Finds (distance : Nat) (nodes fresh : List String) (s t : Search) : Prop where
  nodup : fresh.Nodup
  mem_fresh_iff : ∀ x, x ∈ fresh ↔ x ∈ nodes ∧ s.distances.get? x = none
  get?_eq : ∀ x, t.distances.get? x = if x ∈ fresh then some distance else s.distances.get? x
  queue_eq : t.queue = s.queue ++ fresh.map fun x => (x, distance)
  size_eq : t.distances.size = s.distances.size + fresh.length

namespace Finds

variable {distance : Nat} {nodes fresh : List String} (h : Finds distance nodes fresh s t)

include h

theorem get?_of_mem {x : String} (hx : x ∈ fresh) : t.distances.get? x = some distance := by
  rw [h.get?_eq, if_pos hx]

/-- What was found keeps its distance. -/
theorem get?_of_eq_some {x : String} {d : Nat} (hx : s.distances.get? x = some d) :
    t.distances.get? x = some d := by
  have hnot : x ∉ fresh := fun hm => by
    have hnone := ((h.mem_fresh_iff x).1 hm).2
    simp [hx] at hnone
  rw [h.get?_eq, if_neg hnot, hx]

theorem eq_some_cases {x : String} {d : Nat} (hx : t.distances.get? x = some d) :
    (x ∈ fresh ∧ d = distance) ∨ s.distances.get? x = some d := by
  rw [h.get?_eq] at hx
  split at hx
  · rename_i hm
    exact .inl ⟨hm, (Option.some.inj hx).symm⟩
  · exact .inr hx

theorem mem_queue_iff {x : String} {d : Nat} :
    (x, d) ∈ t.queue ↔ (x, d) ∈ s.queue ∨ (x ∈ fresh ∧ d = distance) := by
  rw [h.queue_eq, List.mem_append, List.mem_map]
  refine or_congr_right ⟨?_, ?_⟩
  · rintro ⟨y, hy, he⟩
    obtain ⟨rfl, rfl⟩ := Prod.mk.inj he
    exact ⟨hy, rfl⟩
  · rintro ⟨hx, rfl⟩
    exact ⟨x, hx, rfl⟩

/-- No node enters the queue twice. -/
theorem nodup_queue (hs : (s.queue.map (·.1)).Nodup)
    (hq : ∀ x d, (x, d) ∈ s.queue → s.distances.get? x = some d) :
    (t.queue.map (·.1)).Nodup := by
  have hnew : (fresh.map fun x => (x, distance)).map (·.1) = fresh := by
    simp [Function.comp_def]
  rw [h.queue_eq, List.map_append, hnew]
  refine List.nodup_append.2 ⟨hs, h.nodup, ?_⟩
  rintro x hx y hy rfl
  obtain ⟨⟨x', d⟩, hm, rfl⟩ := List.mem_map.1 hx
  have hnone := ((h.mem_fresh_iff x').1 hy).2
  rw [hq x' d hm] at hnone
  cases hnone

theorem ascending_queue (hs : s.queue.Pairwise fun a b => a.2 ≤ b.2)
    (hle : ∀ x d, (x, d) ∈ s.queue → d ≤ distance) :
    t.queue.Pairwise fun a b => a.2 ≤ b.2 := by
  rw [h.queue_eq]
  refine List.pairwise_append.2 ⟨hs, ?_, ?_⟩
  · exact List.pairwise_map.2 (List.pairwise_of_forall fun _ _ => Nat.le_refl _)
  · rintro ⟨x, d⟩ hx b hb
    obtain ⟨y, -, rfl⟩ := List.mem_map.1 hb
    exact hle x d hx

end Finds

/-- **What a pass over some nodes finds.** -/
theorem exists_finds_foldl (distance : Nat) (nodes : List String) (s : Search) :
    ∃ fresh, Finds distance nodes fresh s (nodes.foldl (discover distance) s) := by
  induction nodes generalizing s with
  | nil => exact ⟨[], .nil, by simp, by simp, by simp, rfl⟩
  | cons a nodes ih =>
    rw [List.foldl_cons]
    by_cases ha : s.distances.contains a
    · obtain ⟨d, hd⟩ := OrderedMap.contains_iff.1 ha
      have hsame : discover distance s a = s := if_pos ha
      obtain ⟨fresh, h⟩ := ih s
      rw [hsame]
      refine ⟨fresh, { h with mem_fresh_iff := fun x => ?_ }⟩
      rw [h.mem_fresh_iff, List.mem_cons]
      constructor
      · rintro ⟨hx, hnone⟩
        exact ⟨.inr hx, hnone⟩
      · rintro ⟨rfl | hx, hnone⟩
        · simp [hd] at hnone
        · exact ⟨hx, hnone⟩
    · have hnone : s.distances.get? a = none := by simpa [OrderedMap.contains] using ha
      have hnew : discover distance s a =
          ⟨s.distances.insert a distance, s.queue ++ [(a, distance)]⟩ := if_neg ha
      obtain ⟨fresh, h⟩ := ih (discover distance s a)
      have hget : ∀ x, (discover distance s a).distances.get? x =
          if x = a then some distance else s.distances.get? x := fun x => by
        rw [hnew]
        exact OrderedMap.get?_insert s.distances a distance x
      have hmem : ∀ x, x ∈ fresh ↔ x ∈ nodes ∧ x ≠ a ∧ s.distances.get? x = none := fun x => by
        rw [h.mem_fresh_iff, hget]
        by_cases hx : x = a <;> simp [hx]
      refine ⟨a :: fresh, List.nodup_cons.2 ⟨fun hm => ((hmem a).1 hm).2.1 rfl, h.nodup⟩,
        fun x => ?_, fun x => ?_, ?_, ?_⟩
      · rw [List.mem_cons, List.mem_cons, hmem]
        by_cases hx : x = a
        · simp [hx, hnone]
        · simp [hx]
      · rw [h.get?_eq, hget]
        by_cases hx : x = a <;> simp [hx]
      · rw [h.queue_eq, hnew]
        simp
      · rw [h.size_eq, hnew, OrderedMap.size_insert, if_neg ha, List.length_cons]
        omega

/-! ### The invariant of the loop -/

/-- What holds at every step of a search from some seeds up to a radius. -/
structure Invariant (g : PolicyGraph) (seeds : List String) (radius : Nat) (s : Search) :
    Prop where
  reaches : ∀ x d, s.distances.get? x = some d → g.Reaches seeds d x
  le_radius : ∀ x d, s.distances.get? x = some d → d ≤ radius
  queued : ∀ x d, (x, d) ∈ s.queue → s.distances.get? x = some d
  nodup : (s.queue.map (·.1)).Nodup
  ascending : s.queue.Pairwise fun a b => a.2 ≤ b.2
  span : ∀ node distance queue, s.queue = (node, distance) :: queue →
    ∀ x d, s.distances.get? x = some d → d ≤ distance + 1
  seeded : ∀ x, g.Reaches seeds 0 x → s.distances.get? x = some 0
  closed : ∀ x d, s.distances.get? x = some d → (x, d) ∉ s.queue → d < radius →
    ∀ y, g.Joined x y → ∃ d', s.distances.get? y = some d' ∧ d' ≤ d + 1

theorem invariant_start (g : PolicyGraph) (seeds : List String) (radius : Nat) :
    Invariant g seeds radius (start g seeds) := by
  obtain ⟨fresh, h⟩ := exists_finds_foldl 0 (seeds.filter g.contains) ⟨.empty, []⟩
  change Finds 0 _ fresh _ (start g seeds) at h
  have hmem : ∀ x, x ∈ fresh ↔ g.Reaches seeds 0 x := fun x => by
    rw [h.mem_fresh_iff, PolicyGraph.reaches_zero_iff]
    simp [OrderedMap.get?_empty]
  have hcases : ∀ x d, (start g seeds).distances.get? x = some d → x ∈ fresh ∧ d = 0 :=
    fun x d hx => (h.eq_some_cases hx).resolve_right (by simp [OrderedMap.get?_empty])
  refine ⟨?_, ?_, ?_, ?_, ?_, ?_, ?_, ?_⟩
  · intro x d hx
    obtain ⟨hm, rfl⟩ := hcases x d hx
    exact (hmem x).1 hm
  · intro x d hx
    obtain ⟨-, rfl⟩ := hcases x d hx
    exact Nat.zero_le radius
  · intro x d hx
    obtain ⟨hm, rfl⟩ := (h.mem_queue_iff.1 hx).resolve_left List.not_mem_nil
    exact h.get?_of_mem hm
  · exact h.nodup_queue .nil fun x d hx => absurd hx List.not_mem_nil
  · exact h.ascending_queue .nil fun x d hx => absurd hx List.not_mem_nil
  · intro node distance queue _ x d hx
    obtain ⟨-, rfl⟩ := hcases x d hx
    exact Nat.zero_le _
  · intro x hx
    exact h.get?_of_mem ((hmem x).2 hx)
  · intro x d hx hnot
    exact absurd (h.mem_queue_iff.2 (.inr (hcases x d hx))) hnot

namespace Invariant

variable {node : String} {distance : Nat} {queue : List (String × Nat)}

/-- The first node of the queue is recorded at its distance. -/
theorem head_recorded (h : Invariant g seeds radius s) (hq : s.queue = (node, distance) :: queue) :
    s.distances.get? node = some distance :=
  h.queued node distance (hq ▸ List.mem_cons_self)

theorem head_le (h : Invariant g seeds radius s) (hq : s.queue = (node, distance) :: queue)
    {x : String} {d : Nat} (hx : (x, d) ∈ queue) : distance ≤ d :=
  (List.pairwise_cons.1 (hq ▸ h.ascending)).1 (x, d) hx

/-- A node at the radius leaves the queue and is not looked at. -/
theorem drop (h : Invariant g seeds radius s) (hq : s.queue = (node, distance) :: queue)
    (hr : radius ≤ distance) : Invariant g seeds radius { s with queue := queue } where
  reaches := h.reaches
  le_radius := h.le_radius
  queued x d hx := h.queued x d (hq ▸ List.mem_cons_of_mem _ hx)
  nodup := by
    have := hq ▸ h.nodup
    exact (List.nodup_cons.1 this).2
  ascending := (List.pairwise_cons.1 (hq ▸ h.ascending)).2
  span y dy rest hrest x d hx := by
    have hrest : queue = (y, dy) :: rest := hrest
    have hle := h.span node distance queue hq x d hx
    have hfirst := h.head_le hq (hrest ▸ List.mem_cons_self : (y, dy) ∈ queue)
    omega
  seeded := h.seeded
  closed x d hx hnot hd := by
    refine h.closed x d hx (fun hm => ?_) hd
    rw [hq] at hm
    rcases List.mem_cons.1 hm with he | hm
    · obtain ⟨rfl, rfl⟩ := Prod.mk.inj he
      omega
    · exact hnot hm

/-- A node inside the radius leaves the queue and its neighbours are found. -/
theorem expand (hg : g.Consistent) (h : Invariant g seeds radius s)
    (hq : s.queue = (node, distance) :: queue) (hr : distance < radius) {fresh : List String}
    (hf : Finds (distance + 1) (g.neighbours node) fresh { s with queue := queue } t) :
    Invariant g seeds radius t := by
  have hrecorded : ∀ x d, (x, d) ∈ queue → s.distances.get? x = some d := fun x d hx =>
    h.queued x d (hq ▸ List.mem_cons_of_mem _ hx)
  have hjoined : ∀ x ∈ fresh, g.Joined node x := fun x hx =>
    hg.mem_neighbours_iff.1 ((hf.mem_fresh_iff x).1 hx).1
  have hle : ∀ x d, t.distances.get? x = some d → d ≤ distance + 1 := fun x d hx => by
    rcases hf.eq_some_cases hx with ⟨-, rfl⟩ | hx
    · exact Nat.le_refl _
    · exact h.span node distance queue hq x d hx
  have hqueue : (queue.map (·.1)).Nodup ∧ queue.Pairwise fun a b => a.2 ≤ b.2 := by
    have hnodup := hq ▸ h.nodup
    have hascending := hq ▸ h.ascending
    exact ⟨(List.nodup_cons.1 hnodup).2, (List.pairwise_cons.1 hascending).2⟩
  refine ⟨?_, ?_, ?_, ?_, ?_, ?_, ?_, ?_⟩
  · intro x d hx
    rcases hf.eq_some_cases hx with ⟨hm, rfl⟩ | hx
    · exact PolicyGraph.reaches_succ_iff.2
        ⟨node, h.reaches node distance (h.head_recorded hq), hjoined x hm⟩
    · exact h.reaches x d hx
  · intro x d hx
    have := hle x d hx
    omega
  · intro x d hx
    rcases hf.mem_queue_iff.1 hx with hx | ⟨hm, rfl⟩
    · exact hf.get?_of_eq_some (hrecorded x d hx)
    · exact hf.get?_of_mem hm
  · exact hf.nodup_queue hqueue.1 hrecorded
  · exact hf.ascending_queue hqueue.2 fun x d hx =>
      h.span node distance queue hq x d (hrecorded x d hx)
  · intro y dy rest hrest x d hx
    have hfirst : distance ≤ dy := by
      rcases hf.mem_queue_iff.1 (hrest ▸ List.mem_cons_self : (y, dy) ∈ t.queue) with hy | ⟨-, rfl⟩
      · exact h.head_le hq hy
      · exact Nat.le_succ distance
    have := hle x d hx
    omega
  · intro x hx
    exact hf.get?_of_eq_some (h.seeded x hx)
  · intro x d hx hnot hd y hy
    rcases hf.eq_some_cases hx with hnew | hx
    · exact absurd (hf.mem_queue_iff.2 (.inr hnew)) hnot
    by_cases hhead : (x, d) = (node, distance)
    · -- all neighbours of the first node are found now, or were before
      obtain ⟨rfl, rfl⟩ := Prod.mk.inj hhead
      rcases hy' : s.distances.get? y with _ | dy
      · have hm := (hf.mem_fresh_iff y).2 ⟨hg.mem_neighbours_iff.2 hy, hy'⟩
        exact ⟨d + 1, hf.get?_of_mem hm, Nat.le_refl _⟩
      · exact ⟨dy, hf.get?_of_eq_some hy', h.span x d queue hq y dy hy'⟩
    · have hout : (x, d) ∉ s.queue := fun hm => by
        rw [hq] at hm
        rcases List.mem_cons.1 hm with he | hm
        · exact hhead he
        · exact hnot (hf.mem_queue_iff.2 (.inl hm))
      obtain ⟨dy, hdy, hle⟩ := h.closed x d hx hout hd y hy
      exact ⟨dy, hf.get?_of_eq_some hdy, hle⟩

/-- **A step keeps the invariant.** -/
theorem step (hg : g.Consistent) (h : Invariant g seeds radius s) :
    Invariant g seeds radius (s.step g radius) := by
  unfold Search.step
  split
  · exact h
  · rename_i node distance queue hq
    split
    · rename_i hr
      exact h.drop hq hr
    · rename_i hr
      obtain ⟨fresh, hf⟩ := exists_finds_foldl (distance + 1) (g.neighbours node)
        { s with queue := queue }
      exact h.expand hg hq (Nat.not_le.1 hr) hf

/-- **Every run keeps the invariant.** -/
theorem run (hg : g.Consistent) (h : Invariant g seeds radius s) (n : Nat) :
    Invariant g seeds radius (Search.run g radius n s) := by
  induction n generalizing s with
  | zero => exact h
  | succ n ih => exact ih (h.step hg)

/-- **No walk beats a finished search.** -/
theorem exists_le (h : Invariant g seeds radius s) (hq : s.queue = []) :
    ∀ {n : Nat} {x : String}, n ≤ radius → g.Reaches seeds n x →
      ∃ d, s.distances.get? x = some d ∧ d ≤ n
  | 0, x, _, hx => ⟨0, h.seeded x hx, Nat.le_refl 0⟩
  | n + 1, x, hn, hx => by
    obtain ⟨y, hy, hj⟩ := PolicyGraph.reaches_succ_iff.1 hx
    obtain ⟨dy, hdy, hle⟩ := h.exists_le hq (Nat.le_of_succ_le hn) hy
    obtain ⟨d, hd, hd'⟩ := h.closed y dy hdy (by simp [hq]) (by omega) x hj
    exact ⟨d, hd, by omega⟩

end Invariant

/-! ### How many steps a search needs -/

/-- The nodes not yet found and those in the queue: what is still to be looked
at. -/
def pending (g : PolicyGraph) (s : Search) : Nat :=
  g.nodes.size - s.distances.size + s.queue.length

theorem step_of_queue_nil (g : PolicyGraph) (radius : Nat) (hq : s.queue = []) :
    s.step g radius = s := by
  unfold Search.step
  rw [hq]

theorem run_of_queue_nil (g : PolicyGraph) (radius : Nat) (hq : s.queue = []) (n : Nat) :
    run g radius n s = s := by
  induction n with
  | zero => rfl
  | succ n ih => rw [run, step_of_queue_nil g radius hq, ih]

namespace Invariant

/-- Only nodes are found. -/
theorem size_le (hg : g.Consistent) (h : Invariant g seeds radius s) :
    s.distances.size ≤ g.nodes.size := by
  rw [← OrderedMap.length_keys, ← OrderedMap.length_keys]
  refine s.distances.nodup_keys.length_le_of_subset fun x hx => ?_
  obtain ⟨d, hd⟩ := OrderedMap.contains_iff.1 (OrderedMap.mem_keys.1 hx)
  exact OrderedMap.mem_keys.2 (hg.contains_of_reaches (h.reaches x d hd))

/-- **Each step looks at one node.** Finding nodes does not change how many are
still to be looked at. -/
theorem pending_step (hg : g.Consistent) (h : Invariant g seeds radius s) (hq : s.queue ≠ []) :
    pending g (s.step g radius) + 1 = pending g s := by
  obtain ⟨⟨node, distance⟩, queue, hq⟩ := List.exists_cons_of_ne_nil hq
  have hsize := h.size_le hg
  have hsize' := (h.step hg).size_le hg
  by_cases hr : radius ≤ distance
  · have hstep : s.step g radius = { s with queue := queue } := by simp [Search.step, hq, hr]
    simp only [hstep, pending, hq, List.length_cons]
    omega
  · obtain ⟨fresh, hf⟩ := exists_finds_foldl (distance + 1) (g.neighbours node)
      { s with queue := queue }
    have hstep : s.step g radius =
        (g.neighbours node).foldl (discover (distance + 1)) { s with queue := queue } := by
      simp [Search.step, hq, hr]
    rw [hstep] at hsize' ⊢
    have hdistances : _ = s.distances.size + fresh.length := hf.size_eq
    have hqueue := congrArg List.length hf.queue_eq
    simp only [List.length_append, List.length_map] at hqueue
    rw [hdistances] at hsize'
    rw [pending, pending, hqueue, hdistances, hq, List.length_cons]
    omega

/-- **Enough steps empty the queue.** -/
theorem queue_run (hg : g.Consistent) (h : Invariant g seeds radius s) {n : Nat}
    (hn : pending g s ≤ n) : (Search.run g radius n s).queue = [] := by
  induction n generalizing s with
  | zero =>
    rw [pending] at hn
    exact List.eq_nil_of_length_eq_zero (by rw [Search.run]; omega)
  | succ n ih =>
    by_cases hq : s.queue = []
    · rw [run_of_queue_nil g radius hq, hq]
    · have hstep := h.pending_step hg hq
      exact ih (h.step hg) (by omega)

end Invariant

theorem pending_start (hg : g.Consistent) (seeds : List String) :
    pending g (start g seeds) = g.nodes.size := by
  obtain ⟨fresh, h⟩ := exists_finds_foldl 0 (seeds.filter g.contains) ⟨.empty, []⟩
  change Finds 0 _ fresh _ (start g seeds) at h
  have hsize : (start g seeds).distances.size = fresh.length := by
    rw [h.size_eq]
    exact Nat.zero_add _
  have hqueue : (start g seeds).queue.length = fresh.length := by
    rw [h.queue_eq, List.nil_append, List.length_map]
  have hle := (invariant_start g seeds 0).size_le hg
  rw [pending, hqueue]
  omega

/-- **A search is over after as many steps as there are nodes.** -/
theorem queue_run_start (hg : g.Consistent) (seeds : List String) (radius : Nat) :
    (run g radius g.nodes.size (start g seeds)).queue = [] :=
  (invariant_start g seeds radius).queue_run hg (Nat.le_of_eq (pending_start hg seeds))

/-- **A finished search has found everything within the radius.** -/
theorem exists_get?_run_start (hg : g.Consistent) {n : Nat} {x : String} (hn : n ≤ radius)
    (hx : g.Reaches seeds n x) :
    ∃ d, (run g radius g.nodes.size (start g seeds)).distances.get? x = some d ∧ d ≤ n :=
  ((invariant_start g seeds radius).run hg _).exists_le (queue_run_start hg seeds radius) hn hx

/-- **The distances of a finished search are the least numbers of steps.** -/
theorem get?_run_start_iff (hg : g.Consistent) {x : String} {d : Nat} :
    (run g radius g.nodes.size (start g seeds)).distances.get? x = some d ↔
      d ≤ radius ∧ g.Reaches seeds d x ∧ ∀ n, g.Reaches seeds n x → d ≤ n := by
  have hinv := (invariant_start g seeds radius).run hg g.nodes.size
  constructor
  · intro hx
    have hd := hinv.le_radius x d hx
    refine ⟨hd, hinv.reaches x d hx, fun n hn => ?_⟩
    by_cases hle : n ≤ radius
    · obtain ⟨d', hd', hle'⟩ := exists_get?_run_start hg hle hn
      rw [hx] at hd'
      obtain rfl := Option.some.inj hd'
      exact hle'
    · omega
  · rintro ⟨hd, hx, hleast⟩
    obtain ⟨d', hd', hle⟩ := exists_get?_run_start hg hd hx
    have := hleast d' (hinv.reaches x d' hd')
    obtain rfl : d' = d := by omega
    exact hd'

end Search
end ModulePolicy
