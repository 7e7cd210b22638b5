import Booru.Blacklist.Resolution
import Booru.Proofs.Run

/-! What is put on a shelf changes by itself. Adding a blacklist leaves all others as they are, and
to resolve the users of one that was just added comes to adding it with its users resolved. -/

namespace Booru.Blacklist

variable {σ : Type} {s : Shelf} {b : Blacklist} {numbers : List (String × Int)}

theorem length_numberedLines (numbers : List (String × Int)) (lines : List Line) :
    (numberedLines numbers lines).2.length = lines.length := by
  induction lines with
  | nil => rfl
  | cons l rest ih =>
    rw [numberedLines]
    rcases Line.numbered numbers l with ⟨f | n, l'⟩
    · rfl
    · simp [ih]

theorem getD_mem {lines : List Line} {k : Nat} (hk : k < lines.length) :
    lines.getD k [] ∈ lines := by
  rw [List.getD_eq_getElem?_getD, List.getElem?_eq_getElem hk, Option.getD_some]
  exact List.getElem_mem hk

theorem numberedAt_range' (numbers : List (String × Int)) (front lines : List Line) :
    numberedAt numbers (List.range' front.length lines.length) (front ++ lines) =
      ((numberedLines numbers lines).1, front ++ (numberedLines numbers lines).2) := by
  induction lines generalizing front with
  | nil => rfl
  | cons l rest ih =>
    have hfirst : (front ++ l :: rest).getD front.length [] = l := by simp
    have hset (l' : Line) : (front ++ l :: rest).set front.length l' = (front ++ [l']) ++ rest := by
      simp
    rw [List.length_cons, List.range'_succ, numberedAt, hfirst, numberedLines]
    rcases Line.numbered numbers l with ⟨f | n, l'⟩
    · simp [hset]
    · have hrest := ih (front ++ [l'])
      rw [List.length_append, List.length_singleton, List.append_assoc _ [l'] (Prod.snd _)] at hrest
      simp only [hset, hrest]
      rfl

namespace Shelf

theorem lt_of_mem_places {which k : Nat} (hk : k ∈ s.places which) : k < s.lines.length := by
  rw [places, List.getD_eq_getElem?_getD] at hk
  cases hplaces : s.blacklists[which]? with
  | none => simp [hplaces] at hk
  | some places =>
    exact s.placed places (List.mem_of_getElem? hplaces) k (by simpa [hplaces] using hk)

theorem lineAt_add {k : Nat} (hk : k < s.lines.length) (b : Blacklist) :
    (s.add b).lineAt k = s.lineAt k := by
  simp [lineAt, add, List.getD_eq_getElem?_getD, List.getElem?_append_left hk]

theorem shown_add {places : List Nat} (h : places ∈ s.blacklists) (b : Blacklist) :
    (s.add b).shown places = s.shown places := by
  rw [shown, shown]
  congr 1
  exact List.map_congr_left fun k hk => lineAt_add (s.placed places h k hk) b

theorem shown_added (s : Shelf) (b : Blacklist) :
    (s.add b).shown (List.range' s.lines.length b.lines.length) = b := by
  have hlines : (List.range' s.lines.length b.lines.length).map (s.add b).lineAt = b.lines := by
    refine List.ext_getElem (by simp) fun k hk hk' => ?_
    simp [lineAt, add, hk']
  rw [shown, hlines]

theorem places_add (s : Shelf) (b : Blacklist) :
    (s.add b).places s.blacklists.length = List.range' s.lines.length b.lines.length := by
  simp [places, add]

theorem blacklist?_add (s : Shelf) (b : Blacklist) :
    (s.add b).blacklist? s.blacklists.length = some b := by
  have hplaces : (s.add b).blacklists[s.blacklists.length]? =
      some (List.range' s.lines.length b.lines.length) :=
    List.getElem?_concat_length
  rw [blacklist?, hplaces, Option.map_some, shown_added]

theorem blacklist?_add_of_lt {which : Nat} (h : which < s.blacklists.length) (b : Blacklist) :
    (s.add b).blacklist? which = s.blacklist? which := by
  have hplaces : (s.add b).blacklists[which]? = s.blacklists[which]? := List.getElem?_append_left h
  rw [blacklist?, hplaces, List.getElem?_eq_getElem h, blacklist?,
    List.getElem?_eq_getElem h, Option.map_some, Option.map_some, shown_add (List.getElem_mem h)]

theorem withNumbers_add (s : Shelf) (b : Blacklist) (numbers : List (String × Int)) :
    (s.add b).withNumbers numbers s.blacklists.length =
      ((numberedLines numbers b.lines).1, s.add ⟨(numberedLines numbers b.lines).2⟩) := by
  have hchange := numberedAt_range' numbers s.lines b.lines
  simp only [withNumbers, places_add]
  simp only [add, hchange, length_numberedLines]

theorem resolve_add (s : Shelf) (b : Blacklist) (lookup : UserLookup σ) (t : σ) :
    resolve s.blacklists.length lookup (t, s.add b) =
      ((resolveInPlace lookup (t, b)).1, ((resolveInPlace lookup (t, b)).2.1,
        s.add (resolveInPlace lookup (t, b)).2.2)) := by
  simp only [resolve, resolveInPlace, places_add, shown_added, withNumbers_add]
  rcases lookUpNumbers lookup b.tokens [] t with ⟨f | found, u⟩ <;> rfl

end Shelf
end Booru.Blacklist
