import Mathlib.Data.Finset.Card
import Mathlib.Data.Finset.Dedup
import Booru.Blacklist.Basic

/-! When a line fires, by counting its terms. Of the distinct positive terms all have to hit, and of
the distinct negative ones not all; a negated score term is not counted at all. So a line is as good
as the set of its counted terms. -/

namespace Booru.Blacklist

def Token.counted (t : Token) : Bool := !t.negated || t.kind != .score

namespace Line

def demands (l : Line) : Finset Token := l.toFinset.filter fun t => !t.negated

/-- The distinct terms that must not all hit. -/
def exceptions (l : Line) : Finset Token := l.toFinset.filter fun t => t.negated && t.kind != .score

def hitCount (terms : Finset Token) (p : Post) : Nat := (terms.filter (·.hits p)).card

variable {l l' : Line} {p : Post} {t : Token}

theorem mem_demands : t ∈ demands l ↔ t ∈ l ∧ t.negated = false := by
  simp [demands]

theorem mem_exceptions : t ∈ exceptions l ↔ t ∈ l ∧ t.negated = true ∧ t.kind ≠ .score := by
  simp [exceptions]

theorem positives_isEmpty : (positives l).isEmpty = true ↔ demands l = ∅ := by
  rw [List.isEmpty_iff, positives, List.filter_eq_nil_iff, Finset.eq_empty_iff_forall_notMem]
  simp [mem_demands]

theorem negatives_isEmpty : (negatives l).isEmpty = true ↔ exceptions l = ∅ := by
  rw [List.isEmpty_iff, negatives, List.filter_eq_nil_iff, Finset.eq_empty_iff_forall_notMem]
  simp [mem_exceptions]

theorem all_positives : (positives l).all (·.hits p) = true ↔ ∀ t ∈ demands l, t.hits p = true := by
  rw [List.all_eq_true]
  refine forall_congr' fun t => ?_
  rw [positives, List.mem_filter, mem_demands, Bool.not_eq_true']

theorem all_negatives : (negatives l).all (·.hits p) = true ↔ ∀ t ∈ exceptions l,
    t.hits p = true := by
  rw [List.all_eq_true]
  refine forall_congr' fun t => ?_
  rw [negatives, List.mem_filter, mem_exceptions, Bool.and_eq_true, bne_iff_ne]

theorem fires_iff : fires l p = true ↔ (demands l ∪ exceptions l).Nonempty ∧
    (∀ t ∈ demands l, t.hits p = true) ∧
    ((exceptions l).Nonempty → ∃ t ∈ exceptions l, t.hits p = false) := by
  have hsome : (demands l ∪ exceptions l).Nonempty ↔ ¬ (demands l = ∅ ∧ exceptions l = ∅) := by
    rw [Finset.nonempty_iff_ne_empty, Ne, Finset.union_eq_empty]
  have hmissed : ((negatives l).all (·.hits p)) = false ↔ ∃ t ∈ exceptions l, t.hits p = false := by
    rw [← Bool.not_eq_true, all_negatives]
    simp
  have hnegatives : ((negatives l).isEmpty || !(negatives l).all (·.hits p)) = true ↔
      ((exceptions l).Nonempty → ∃ t ∈ exceptions l, t.hits p = false) := by
    rw [Bool.or_eq_true, negatives_isEmpty, Bool.not_eq_true', hmissed,
      ← Finset.not_nonempty_iff_eq_empty, imp_iff_not_or]
  rw [hsome, ← positives_isEmpty, ← negatives_isEmpty, ← all_positives, ← hnegatives,
    ← Bool.and_eq_true]
  unfold fires
  split
  · rename_i hnone
    simp [hnone]
  · rename_i hcounted
    split
    · rename_i hall
      simp [hcounted, hall]
    · rename_i hall
      simp [hall]

theorem demands_congr (h : ∀ t, t.counted = true → (t ∈ l' ↔ t ∈ l)) : demands l' = demands l := by
  ext t
  rw [mem_demands, mem_demands]
  refine and_congr_left fun hpositive => h t ?_
  simp [Token.counted, hpositive]

theorem exceptions_congr (h : ∀ t, t.counted = true → (t ∈ l' ↔ t ∈ l)) :
    exceptions l' = exceptions l := by
  ext t
  rw [mem_exceptions, mem_exceptions]
  refine and_congr_left fun hnegative => h t ?_
  simp [Token.counted, hnegative.2]

theorem fires_congr (h : ∀ t, t.counted = true → (t ∈ l' ↔ t ∈ l)) (p : Post) :
    fires l' p = fires l p := by
  rw [Bool.eq_iff_iff, fires_iff, fires_iff, demands_congr h, exceptions_congr h]

theorem fires_of_fires_more (hmore : ∀ u, u ∈ l' ↔ u = t ∨ u ∈ l) (hpositive : t.negated = false)
    (hcounted : (demands l ∪ exceptions l).Nonempty) (h : fires l' p = true) :
    fires l p = true := by
  have hdemands : demands l ⊆ demands l' := by
    intro u hu
    rw [mem_demands] at hu ⊢
    exact ⟨(hmore u).mpr (.inr hu.1), hu.2⟩
  have hexceptions : exceptions l' = exceptions l := by
    ext u
    rw [mem_exceptions, mem_exceptions, hmore]
    refine and_congr_left fun hnegative => or_iff_right ?_
    rintro rfl
    simp [hpositive] at hnegative
  rw [fires_iff] at h ⊢
  obtain ⟨-, hall, hmissed⟩ := h
  exact ⟨hcounted, fun u hu => hall u (hdemands hu), hexceptions ▸ hmissed⟩

theorem counted_nonempty :
    (demands l ∪ exceptions l).Nonempty ↔ 0 < (demands l).card + (exceptions l).card := by
  rw [Finset.nonempty_iff_ne_empty, Ne, Finset.union_eq_empty, Nat.pos_iff_ne_zero, Ne,
    Nat.add_eq_zero_iff, Finset.card_eq_zero, Finset.card_eq_zero]

/-- A line fires when it has counted terms, all of its demands hit, and not all of its exceptions
do, of which there may be none. So lines with the same counted terms fire alike, in whatever order
and however often they have them and whatever negated score terms they have besides, and one more
demand never makes a line fire that has counted terms. -/
theorem fires_by_count (l : Line) (p : Post) :
    (fires l p = true ↔ 0 < (demands l).card + (exceptions l).card ∧
      hitCount (demands l) p = (demands l).card ∧
      ¬ (0 < (exceptions l).card ∧ hitCount (exceptions l) p = (exceptions l).card)) ∧
    (∀ l' : Line, (∀ t, t.counted = true → (t ∈ l' ↔ t ∈ l)) → fires l' p = fires l p) ∧
    (∀ (l' : Line) (t : Token), (∀ u, u ∈ l' ↔ u = t ∨ u ∈ l) → t.negated = false →
      0 < (demands l).card + (exceptions l).card → fires l' p = true → fires l p = true) := by
  refine ⟨?_, fun l' h => fires_congr h p, fun l' t hmore hpositive hcounted h => ?_⟩
  · have hdemands : (∀ t ∈ demands l, t.hits p = true) ↔ hitCount (demands l) p =
    (demands l).card :=
      Finset.card_filter_eq_iff.symm
    have hexceptions : ((exceptions l).Nonempty → ∃ t ∈ exceptions l, t.hits p = false) ↔
        ¬ (0 < (exceptions l).card ∧ hitCount (exceptions l) p = (exceptions l).card) := by
      rw [hitCount, Finset.card_filter_eq_iff, Finset.card_pos, not_and]
      simp
    rw [fires_iff, counted_nonempty, hdemands, hexceptions]
  · exact fires_of_fires_more hmore hpositive (counted_nonempty.mpr hcounted) h

def unsafeFox : Line := [.ofTag "fox" false, .ofRating "s" true, .scoreOf ">" 5 true]

def soloFox : Post := { id := 1, uploader := 2, rating := "q", tags := ["fox", "solo"], score := 9 }

theorem fires_by_count_soloFox :
    fires (.ofTag "solo" false :: unsafeFox) soloFox = true ∧ fires unsafeFox soloFox = true ∧
    fires [.ofRating "s" true, .ofTag "fox" false, .ofTag "fox" false] soloFox = true := by
  have hmore : fires (.ofTag "solo" false :: unsafeFox) soloFox = true := by decide
  have hfires : fires unsafeFox soloFox = true :=
    (fires_by_count unsafeFox soloFox).2.2 _ (.ofTag "solo" false) (by simp) rfl (by decide) hmore
  refine ⟨hmore, hfires, ?_⟩
  rw [← hfires]
  apply (fires_by_count unsafeFox soloFox).2.1
  intro t ht
  have hscore : t ≠ .scoreOf ">" 5 true := by
    rintro rfl
    simp [Token.counted, Token.scoreOf] at ht
  simp [unsafeFox, hscore]
  tauto

end Line
end Booru.Blacklist
