/-
# Similarities and scores

The similarity of two texts is one minus their relative distance. This is at
most one, so there is always something to take it from: no similarity is cut off
at zero (`similarity_eq`).

The score of a query for an identifier is the greatest similarity of the query
to one of the texts of the identifier, itself and its segments
(`score_greatest`).
-/

import ModulePolicy.Proofs.Number.Order
import ModulePolicy.Proofs.Number.Rounding
import ModulePolicy.Proofs.Similarity.LeastEdits
import ModulePolicy.Similarity.Score

namespace ModulePolicy

/-- The edit distance of two texts over the length of the longer one, as
rounded. -/
def relativeDistance (a b : String) : Magnitude :=
  (Magnitude.ofNat (textDistance a b)).div (.ofNat (max a.length b.length))

/-- **A relative distance is at most one.** -/
theorem relativeDistance_le_one {a b : String} (h : 0 < max a.length b.length) :
    (relativeDistance a b).code ≤ Magnitude.one.code :=
  Magnitude.div_ofNat_le_one h (textDistance_le a b)

/-- **A similarity is what the relative distance leaves of one.** -/
theorem similarity_eq {a b : String} (h : 0 < max a.length b.length) :
    similarity a b = (relativeDistance a b).complement ∧
      (relativeDistance a b).code ≤ Magnitude.one.code :=
  ⟨if_neg h.ne', relativeDistance_le_one h⟩

namespace ModuleId

/-- What a query is compared with. -/
def comparedTexts (id : ModuleId) : List String := lowercase id.text :: id.segments.map lowercase

/-- The score of a query for the module. -/
def score (query : String) (id : ModuleId) : Magnitude :=
  (Candidate.ofId id).score (lowercase query)

end ModuleId

/-- The greatest of some magnitudes, found one after the other. -/
theorem foldl_max_greatest {α : Type} (f : α → Magnitude) (l : List α) (m : Magnitude) :
    (l.foldl (fun best a => best.max (f a)) m = m ∨
      ∃ a ∈ l, f a = l.foldl (fun best a => best.max (f a)) m) ∧
      m.code ≤ (l.foldl (fun best a => best.max (f a)) m).code ∧
      ∀ a ∈ l, (f a).code ≤ (l.foldl (fun best a => best.max (f a)) m).code := by
  induction l generalizing m with
  | nil => exact ⟨.inl rfl, Nat.le_refl _, fun _ h => absurd h List.not_mem_nil⟩
  | cons b l ih =>
    obtain ⟨hfound, hle, hall⟩ := ih (m.max (f b))
    rw [List.foldl_cons]
    refine ⟨?_, Nat.le_trans (m.code_le_max_left (f b)) hle,
      List.forall_mem_cons.2 ⟨Nat.le_trans (m.code_le_max_right (f b)) hle, hall⟩⟩
    rcases hfound with hfound | ⟨a, ha, hfound⟩
    · rw [hfound]
      rcases m.max_eq (f b) with h | h
      · exact .inl h
      · exact .inr ⟨b, List.mem_cons_self, h.symm⟩
    · exact .inr ⟨a, List.mem_cons_of_mem _ ha, hfound⟩

/-- **The score is the greatest similarity** to the identifier or one of its
segments. -/
theorem score_greatest (query : String) (id : ModuleId) :
    (∃ text ∈ id.comparedTexts, similarity (lowercase query) text = id.score query) ∧
      ∀ text ∈ id.comparedTexts,
        (similarity (lowercase query) text).code ≤ (id.score query).code := by
  obtain ⟨hfound, hle, hall⟩ := foldl_max_greatest (similarity (lowercase query))
    (id.segments.map lowercase) (similarity (lowercase query) (lowercase id.text))
  refine ⟨?_, List.forall_mem_cons.2 ⟨hle, hall⟩⟩
  rcases hfound with hfound | ⟨text, htext, hfound⟩
  · exact ⟨_, List.mem_cons_self, hfound.symm⟩
  · exact ⟨text, List.mem_cons_of_mem _ htext, hfound⟩

/-- **A score is one minus a relative distance** that is at most one, so it is not
below zero. -/
theorem exists_score_eq_complement {query : String} (hquery : query ≠ "") (id : ModuleId) :
    ∃ text ∈ id.comparedTexts,
      id.score query = (relativeDistance (lowercase query) text).complement ∧
        (relativeDistance (lowercase query) text).code ≤ Magnitude.one.code := by
  obtain ⟨⟨text, htext, hscore⟩, -⟩ := score_greatest query id
  have hlength : 0 < query.length :=
    Nat.pos_of_ne_zero fun h => hquery (String.length_eq_zero_iff.1 h)
  have hlowered : 0 < (lowercase query).length :=
    Nat.lt_of_lt_of_le hlength (length_le_length_lowercase query)
  obtain ⟨hsimilarity, hdistance⟩ :=
    similarity_eq (Nat.lt_of_lt_of_le hlowered (Nat.le_max_left _ text.length))
  exact ⟨text, htext, hscore.symm.trans hsimilarity, hdistance⟩

end ModulePolicy
