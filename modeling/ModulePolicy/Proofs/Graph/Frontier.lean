/-
# The loop of a search

A search is a loop that goes on until its queue is empty. `Rounds` follows it
round by round and keeps the pairs that were taken off the queue. A pair leaves
the queue at the front and enters it at the back, so these and the queue behind
them are all pairs that ever entered it, in order: the log of the search.

| at every round | because |
| --- | --- |
| the log lists the recorded distances, each node once | only what is not recorded enters the queue (`Logs`) |
| the queue ascends, by one step at most, and nothing recorded lies beyond the radius | the invariant of the search (`Invariant`) |
| the next distance fits an integer that can hold the radius | it is only formed inside the radius (`step?_eq`) |

How long the queue is says nothing about the end, since it grows and shrinks. The
nodes that are still to be looked at become fewer with each round (`pending_step`),
so the loop ends (`Invariant.exists_rounds`). Then the log has left the queue
altogether: every node found was taken off it once.
-/

import ModulePolicy.Proofs.Graph.Radius

namespace ModulePolicy

/-- A new key adds an entry. -/
theorem OrderedMap.entries_insert_perm {α : Type} {m : OrderedMap α} {k : String} (v : α)
    (h : m.get? k = none) : (m.insert k v).entries.Perm ((k, v) :: m.entries) := by
  have hnot : (k, v) ∉ m.entries := fun hm => by
    rw [← get?_eq_some_iff, h] at hm
    cases hm
  refine (List.perm_ext_iff_of_nodup (nodup_keys _).of_map ?_).2 fun ⟨x, u⟩ => ?_
  · exact List.nodup_cons.2 ⟨hnot, m.nodup_keys.of_map⟩
  · rw [List.mem_cons, ← get?_eq_some_iff, ← get?_eq_some_iff, get?_insert, Prod.mk.injEq]
    by_cases hx : x = k
    · subst hx
      simp [h, eq_comm]
    · simp [hx]

namespace Search

variable {g : PolicyGraph} {seeds : List String} {radius : Nat} {s t : Search}
  {front : String × Nat} {queue log popped : List (String × Nat)}

/-! ### Rounds of the loop -/

/-- From `s` the loop comes to `t`, a round for each pair of a list that is taken
off the queue. -/
inductive Rounds (g : PolicyGraph) (radius : Nat) : Search → List (String × Nat) → Search → Prop
  | nil (s : Search) : Rounds g radius s [] s
  | cons {s t : Search} {front : String × Nat} {queue popped : List (String × Nat)} :
      s.queue = front :: queue → Rounds g radius (s.step g radius) popped t →
        Rounds g radius s (front :: popped) t

theorem Rounds.invariant (hg : g.Consistent) (h : Rounds g radius s popped t)
    (hs : Invariant g seeds radius s) : Invariant g seeds radius t := by
  induction h with
  | nil => exact hs
  | cons _ _ ih => exact ih (hs.step hg)

/-- **The loop ends,** wherever it stands. -/
theorem Invariant.exists_rounds (hg : g.Consistent) (hs : Invariant g seeds radius s) :
    ∃ popped t, Rounds g radius s popped t ∧ t.queue = [] := by
  induction hn : pending g s generalizing s with
  | zero =>
    have hlength : s.queue.length = 0 := by
      rw [pending] at hn
      omega
    exact ⟨[], s, .nil s, List.eq_nil_of_length_eq_zero hlength⟩
  | succ n ih =>
    cases hq : s.queue with
    | nil => exact ⟨[], s, .nil s, hq⟩
    | cons front queue =>
      have hstep := hs.pending_step hg (by simp [hq])
      obtain ⟨popped, t, hrounds, ht⟩ := ih (hs.step hg) (by omega)
      exact ⟨front :: popped, t, .cons hq hrounds, ht⟩

/-- A number of steps that is large enough does the rounds and nothing more. -/
theorem Rounds.run_eq (h : Rounds g radius s popped t) (ht : t.queue = []) {n : Nat}
    (hn : popped.length ≤ n) : run g radius n s = t := by
  induction h generalizing n with
  | nil s => exact run_of_queue_nil g radius ht n
  | cons _ _ ih =>
    obtain ⟨m, rfl⟩ := Nat.exists_eq_add_of_le' (Nat.lt_of_lt_of_le (Nat.succ_pos _) hn)
    rw [run]
    exact ih ht (Nat.le_of_succ_le_succ hn)

/-! ### The log -/

/-- The pairs of a list and those in the queue are the recorded distances, each
of them once. -/
def Logs (log : List (String × Nat)) (s : Search) : Prop :=
  (log ++ s.queue).Perm s.distances.entries

theorem Logs.discover (h : Logs log s) (distance : Nat) (node : String) :
    Logs log (discover distance s node) := by
  unfold Search.discover
  split
  · exact h
  · rename_i hnew
    have hnone : s.distances.get? node = none := by simpa [OrderedMap.contains] using hnew
    have hlast : (log ++ (s.queue ++ [(node, distance)])).Perm
        ((node, distance) :: (log ++ s.queue)) := by
      rw [← List.append_assoc]
      exact List.perm_append_singleton _ _
    exact (hlast.trans (h.cons _)).trans (OrderedMap.entries_insert_perm distance hnone).symm

theorem Logs.foldl_discover (h : Logs log s) (distance : Nat) (nodes : List String) :
    Logs log (nodes.foldl (Search.discover distance) s) := by
  induction nodes generalizing s with
  | nil => exact h
  | cons node nodes ih => exact ih (h.discover distance node)

theorem logs_start (g : PolicyGraph) (seeds : List String) : Logs [] (start g seeds) := by
  have hempty : Logs [] ⟨.empty, []⟩ := List.Perm.refl []
  exact hempty.foldl_discover 0 (seeds.filter g.contains)

/-- A step takes the front of the queue to the log. -/
theorem Logs.step (h : Logs log s) (hq : s.queue = front :: queue) :
    Logs (log ++ [front]) (s.step g radius) := by
  have hpop : Logs (log ++ [front]) { s with queue := queue } := by
    have hlog : log ++ [front] ++ queue = log ++ s.queue := by simp [hq]
    exact (List.Perm.of_eq hlog).trans h
  obtain ⟨node, distance⟩ := front
  simp only [Search.step, hq]
  split
  · exact hpop
  · exact hpop.foldl_discover (distance + 1) (g.neighbours node)

theorem Rounds.logs (h : Rounds g radius s popped t) (hs : Logs log s) :
    Logs (log ++ popped) t := by
  induction h generalizing log with
  | nil => rwa [List.append_nil]
  | @cons _ _ front _ popped hq _ ih =>
    have hlog := ih (hs.step hq)
    rwa [List.append_assoc, List.singleton_append] at hlog

/-- The log grows at its end only. -/
theorem queue_prefix_foldl (distance : Nat) (nodes : List String) (s : Search) :
    s.queue <+: (nodes.foldl (discover distance) s).queue := by
  obtain ⟨fresh, h⟩ := exists_finds_foldl distance nodes s
  exact ⟨_, h.queue_eq.symm⟩

theorem queue_prefix_step (hq : s.queue = front :: queue) :
    queue <+: (s.step g radius).queue := by
  obtain ⟨node, distance⟩ := front
  simp only [step, hq]
  split
  · exact List.prefix_refl queue
  · exact queue_prefix_foldl (distance + 1) (g.neighbours node) { s with queue := queue }

theorem Rounds.queue_prefix (h : Rounds g radius s popped t) :
    s.queue <+: popped ++ t.queue := by
  induction h with
  | nil s => exact List.prefix_refl s.queue
  | @cons _ _ front _ _ hq _ ih =>
    rw [hq, List.cons_append]
    exact (List.prefix_cons_inj front).2 ((queue_prefix_step hq).trans ih)

/-- **What is in the log is taken off the queue,** in this order, by the time the
loop ends. -/
theorem Rounds.log_prefix {all : List (String × Nat)} {u : Search}
    (h : Rounds g radius s popped t) (hall : Rounds g radius s all u) (hu : u.queue = []) :
    popped ++ t.queue <+: all := by
  induction h generalizing all with
  | nil s =>
    have hprefix := hall.queue_prefix
    rwa [hu, List.append_nil] at hprefix
  | cons hq _ ih =>
    cases hall with
    | nil =>
      rw [hq] at hu
      cases hu
    | cons hq' hall =>
      obtain ⟨rfl, -⟩ := List.cons.inj (hq.symm.trans hq')
      exact (List.prefix_cons_inj _).2 (ih hall)

/-! ### Machine integers -/

/-- Finds a node one step beyond a distance, counted in integers up to a limit.
The sum is only formed for a node not found before. -/
def discoverNext? (limit distance : Nat) (s : Search) (node : String) : Option Search :=
  if s.distances.contains node then some s
  else if distance + 1 ≤ limit then
    some ⟨s.distances.insert node (distance + 1), s.queue ++ [(node, distance + 1)]⟩
  else none

/-- The step with integers up to a limit; there is none after an overflow. -/
def step? (limit : Nat) (g : PolicyGraph) (radius : Nat) (s : Search) : Option Search :=
  match s.queue with
  | [] => some s
  | (node, distance) :: queue =>
    if radius ≤ distance then some { s with queue := queue }
    else (g.neighbours node).foldlM (discoverNext? limit distance) { s with queue := queue }

theorem foldlM_discoverNext? {limit distance : Nat} (h : distance + 1 ≤ limit)
    (nodes : List String) (s : Search) :
    nodes.foldlM (discoverNext? limit distance) s =
      some (nodes.foldl (discover (distance + 1)) s) := by
  induction nodes generalizing s with
  | nil => rfl
  | cons node nodes ih =>
    have hnode : discoverNext? limit distance s node = some (discover (distance + 1) s node) := by
      by_cases hfound : s.distances.contains node
      · rw [discoverNext?, discover, if_pos hfound, if_pos hfound]
      · rw [discoverNext?, discover, if_neg hfound, if_neg hfound, if_pos h]
    rw [List.foldlM_cons, hnode, List.foldl_cons]
    exact ih _

/-- **No step overflows** if the radius itself is within the limit. -/
theorem step?_eq {limit : Nat} (hr : radius ≤ limit) (s : Search) :
    s.step? limit g radius = some (s.step g radius) := by
  cases hq : s.queue with
  | nil => simp only [step?, step, hq]
  | cons front queue =>
    obtain ⟨node, distance⟩ := front
    simp only [step?, step, hq]
    by_cases hbeyond : radius ≤ distance
    · rw [if_pos hbeyond, if_pos hbeyond]
    · have hnext : distance + 1 ≤ limit := Nat.le_trans (Nat.lt_of_not_le hbeyond) hr
      rw [if_neg hbeyond, if_neg hbeyond, foldlM_discoverNext? hnext]

/-! ### Every round and the end -/

/-- What holds when the loop looks at its queue, having taken some pairs off it
before. These and the queue make up the log. -/
structure AtRound (g : PolicyGraph) (radius limit : Nat) (popped : List (String × Nat))
    (s : Search) : Prop where
  ascending : s.queue.Pairwise fun a b => a.2 ≤ b.2
  within_one : ∀ a ∈ s.queue, ∀ b ∈ s.queue, b.2 ≤ a.2 + 1
  recorded : ∀ a ∈ popped ++ s.queue, s.distances.get? a.1 = some a.2
  contains_of_recorded : ∀ x d, s.distances.get? x = some d → g.contains x
  once : ((popped ++ s.queue).map (·.1)).Nodup
  logged : ∀ x d, s.distances.get? x = some d → (x, d) ∈ popped ++ s.queue
  le_radius : ∀ x d, s.distances.get? x = some d → d ≤ radius
  step?_eq : s.step? limit g radius = some (s.step g radius)

/-- No two pairs of the queue are more than one step apart: the first one is the
least, and nothing is more than a step beyond it. -/
theorem Invariant.within_one (h : Invariant g seeds radius s) :
    ∀ a ∈ s.queue, ∀ b ∈ s.queue, b.2 ≤ a.2 + 1 := by
  rintro ⟨x, d⟩ ha ⟨y, e⟩ hb
  cases hq : s.queue with
  | nil =>
    rw [hq] at ha
    cases ha
  | cons front queue =>
    obtain ⟨node, distance⟩ := front
    have he : e ≤ distance + 1 := h.span node distance queue hq y e (h.queued y e hb)
    have hd : distance ≤ d := by
      rw [hq] at ha
      rcases List.mem_cons.1 ha with heq | ha
      · exact Nat.le_of_eq (Prod.mk.inj heq).2.symm
      · exact h.head_le hq ha
    change e ≤ d + 1
    omega

theorem atRound (hg : g.Consistent) (h : Invariant g seeds radius s) (hlogs : Logs popped s)
    {limit : Nat} (hr : radius ≤ limit) : AtRound g radius limit popped s where
  ascending := h.ascending
  within_one := h.within_one
  recorded _ ha := OrderedMap.get?_eq_some_iff.2 (hlogs.mem_iff.1 ha)
  contains_of_recorded x d hx := hg.contains_of_reaches (h.reaches x d hx)
  once := (List.Perm.map Prod.fst hlogs).nodup_iff.2 s.distances.nodup_keys
  logged _ _ hx := hlogs.mem_iff.2 (OrderedMap.get?_eq_some_iff.1 hx)
  le_radius := h.le_radius
  step?_eq := Search.step?_eq hr s

end Search

namespace PolicyGraph

/-- **The loop of a search takes every node it finds off the queue once.** At
every round the queue ascends and spans two distances at most; all pairs that
entered it, those taken off included, are recorded as they are, no node twice;
what is recorded are nodes of the graph within the radius, and the next distance
fits every integer that can hold the radius. So the loop ends after as many
rounds as there are nodes found, and what it has recorded then is the
neighborhood. At radius zero this is known before the first round. -/
theorem search_pops_each_node_once (p : Policy) (seeds : List String) {radius limit : Nat}
    (hr : radius ≤ limit) :
    let g := ofPolicy p
    let started := Search.start g seeds
    (∀ popped s, Search.Rounds g radius started popped s →
      Search.AtRound g radius limit popped s) ∧
    ∃ all final, Search.Rounds g radius started all final ∧ final.queue = [] ∧
      (all.map (·.1)).Perm final.distances.keys ∧ all.length ≤ g.nodes.size ∧
      (∀ popped s, Search.Rounds g radius started popped s → popped ++ s.queue <+: all) ∧
      final.distances = (g.neighborhood seeds radius).distances := by
  intro g started
  have hg : g.Consistent := consistent_ofPolicy p
  have hstart : Search.Invariant g seeds radius started := Search.invariant_start g seeds radius
  have hlogs : Search.Logs [] started := Search.logs_start g seeds
  refine ⟨fun popped s h => ?_, ?_⟩
  · exact Search.atRound hg (h.invariant hg hstart) (h.logs hlogs) hr
  · obtain ⟨all, final, hall, hfinal⟩ := hstart.exists_rounds hg
    have hperm : all.Perm final.distances.entries := by
      have h := hall.logs hlogs
      rwa [Search.Logs, List.nil_append, hfinal, List.append_nil] at h
    have hsize : all.length ≤ g.nodes.size :=
      Nat.le_trans (Nat.le_of_eq hperm.length_eq) ((hall.invariant hg hstart).size_le hg)
    refine ⟨all, final, hall, hfinal, hperm.map _, hsize, ?_, ?_⟩
    · intro popped s h
      exact h.log_prefix hall hfinal
    · rw [distances_neighborhood, hall.run_eq hfinal hsize]

/-! The chain of callers from its middle, at the largest radius of 64 bits: the
store and the mobile client are found together. -/

theorem search_pops_each_node_once_chain :
    let g := ofPolicy chainPolicy
    let started := Search.start g ["web", "unknown", "web"]
    let largest := 18446744073709551615
    largest ≤ largest ∧
      Search.Rounds g largest started [("web", 0)] (started.step g largest) ∧
      (started.step g largest).queue = [("store", 1), ("mobile", 1)] ∧
      Search.AtRound g largest largest [("web", 0)] (started.step g largest) ∧
      ∃ final, Search.Rounds g largest started [("web", 0), ("store", 1), ("mobile", 1)] final ∧
        final.queue = [] := by
  intro g started largest
  have hseeds : started.queue = [("web", 0)] := by decide
  have hfirst : Search.Rounds g largest started [("web", 0)] (started.step g largest) :=
    .cons hseeds (.nil _)
  have hqueue : (started.step g largest).queue = [("store", 1), ("mobile", 1)] := by decide
  have hsize : g.nodes.size = 3 := by decide
  obtain ⟨hrounds, all, final, hall, hfinal, -, hlength, hprefix, -⟩ :=
    search_pops_each_node_once chainPolicy ["web", "unknown", "web"] (Nat.le_refl largest)
  have hlog : [("web", 0), ("store", 1), ("mobile", 1)] <+: all := by
    have h := hprefix _ _ hfirst
    rwa [hqueue] at h
  have heq : [("web", 0), ("store", 1), ("mobile", 1)] = all :=
    hlog.eq_of_length_le (Nat.le_trans hlength (Nat.le_of_eq hsize))
  exact ⟨Nat.le_refl _, hfirst, hqueue, hrounds _ _ hfirst, final, heq ▸ hall, hfinal⟩

end PolicyGraph

end ModulePolicy
