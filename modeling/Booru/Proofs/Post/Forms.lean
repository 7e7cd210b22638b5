import Mathlib.Data.List.ReduceOption
import Booru.Post
import Booru.Proofs.Post.Totality
import Booru.Proofs.Run
import Booru.Proofs.Text.Trimming

/-! The form of posts. Whatever an entry looks like, its post has one of the three ratings, a size
that is not negative, and texts without outer white space; and of the entries of an answer none gets
lost, however they are handed over. -/

namespace Booru

open Text (Trimmed)

variable {name : String} {names : List String}

theorem mem_insertName {x : String} : x ∈ insertName name names ↔ x = name ∨ x ∈ names := by
  induction names with
  | nil => simp [insertName]
  | cons y rest ih =>
    unfold insertName
    split
    · simp
    · split
      · rename_i heq
        simp [heq]
      · simp [ih, or_left_comm]

theorem mem_nameSet : name ∈ nameSet names ↔ name ∈ names := by
  induction names with
  | nil => simp [nameSet]
  | cons x rest ih =>
    rw [nameSet, List.foldr_cons, ← nameSet, mem_insertName, ih, List.mem_cons]

namespace Post

variable {p : Post} {entry : Json}

structure WellFormed (p : Post) : Prop where
  rating : p.rating ∈ ["s", "q", "e"]
  fileSize : 0 ≤ p.fileSize
  fileUrl : ∀ url ∈ p.fileUrl, Trimmed url.toList
  md5 : ∀ sum ∈ p.md5, Trimmed sum.toList
  fileExt : ∀ ext ∈ p.fileExt, Trimmed ext.toList
  tags : ∀ tag ∈ p.tags, Trimmed tag.toList

/-! ### Texts -/

theorem ratingOf_mem (v : Json) : ratingOf v ∈ ["s", "q", "e"] := by
  simp only [ratingOf]
  split
  · rename_i hknown
    exact List.contains_iff_mem.mp hknown
  · decide

theorem trimmed_of_text {v : Json} {s : String} (h : text? v = some s) : Trimmed s.toList := by
  cases v with
  | string raw =>
    simp only [text?, Option.ite_none_left_eq_some, Option.some.injEq] at h
    obtain ⟨hfull, rfl⟩ := h
    have hblank : ¬ Text.Blanks raw.toList :=
      fun hblank => hfull (String.isEmpty_iff.mpr (Text.strip_eq_empty_iff.mpr hblank))
    simpa [Text.strip] using Text.trimmed_trim hblank
  | _ => cases h

theorem trimmed_of_mem_tagsOf {v : Json} {tag : String} (h : tag ∈ tagsOf v) :
    Trimmed tag.toList := by
  cases v with
  | string s =>
    obtain ⟨w, hw, rfl⟩ := List.mem_map.mp (mem_nameSet.mp h)
    rw [String.toList_ofList]
    exact (Text.isWord_of_mem_wordsOf hw).trimmed
  | object ms =>
    obtain ⟨category, -, hcategory⟩ := List.mem_flatMap.mp (mem_nameSet.mp h)
    obtain ⟨item, -, hitem⟩ := List.mem_filterMap.mp hcategory
    exact trimmed_of_text hitem
  | _ => cases h

/-! ### One entry -/

theorem wellFormed_of_normal (h : normal? entry = some p) : p.WellFormed := by
  cases entry with
  | object ms =>
    obtain ⟨id, -, hp⟩ := Option.map_eq_some_iff.mp h
    have hrating : p.rating = ratingOf ((Json.object ms).member "rating") := by rw [← hp]
    have htags : p.tags = tagsOf ((Json.object ms).member "tags") := by rw [← hp]
    -- all that is said of the file stands in one member
    obtain ⟨file, hurl, hmd5, hext, hsize⟩ : ∃ file : Json, p.fileUrl = text? (file.member "url") ∧
        p.md5 = text? (file.member "md5") ∧ p.fileExt = text? (file.member "ext") ∧
        p.fileSize = max 0 ((number? (file.member "size")).getD 0) :=
      ⟨(Json.object ms).member "file", by rw [← hp], by rw [← hp], by rw [← hp], by rw [← hp]⟩
    exact
      { rating := hrating ▸ ratingOf_mem _
        fileSize := hsize ▸ Int.le_max_left _ _
        fileUrl := fun url h => trimmed_of_text (hurl.symm.trans h)
        md5 := fun sum h => trimmed_of_text (hmd5.symm.trans h)
        fileExt := fun ext h => trimmed_of_text (hext.symm.trans h)
        tags := fun tag h => trimmed_of_mem_tagsOf (htags ▸ h) }
  | _ => cases h

theorem WellFormed.isInvalid_iff (h : p.WellFormed) : p.isInvalid = true ↔ p.deleted = true ∨
    p.fileUrl = none := by
  rw [isInvalid, Bool.or_eq_true]
  refine or_congr_right ?_
  cases hurl : p.fileUrl with
  | none => simp [Text.trim, Text.dropEndWhile]
  | some url =>
    have htrimmed := h.fileUrl url hurl
    simp [htrimmed.trim_eq, htrimmed.nonempty]

/-! ### Whole answers -/

theorem ofEntries_eq_map (entries : List Json) :
    ofEntries entries = (entries.mapM ofEntry?).map fun results =>
    (results.reduceOption, results.countP (·.isNone)) := by
  induction entries with
  | nil => rfl
  | cons entry rest ih =>
    rw [ofEntries, ih, List.mapM_cons]
    cases ofEntry? entry with
    | error e => rfl
    | ok post? =>
      cases rest.mapM ofEntry? with
      | error e => rfl
      | ok results => cases post? <;> simp [bind, Except.bind, pure, Except.pure, Except.map]

theorem ofEntries_append (xs ys : List Json) : ofEntries (xs ++ ys) = (do
    let first ← ofEntries xs
    let second ← ofEntries ys
    pure (first.1 ++ second.1, first.2 + second.2)) := by
  rw [ofEntries_eq_map, ofEntries_eq_map, ofEntries_eq_map, List.mapM_append]
  cases xs.mapM ofEntry? with
  | error e => rfl
  | ok first =>
    cases ys.mapM ofEntry? with
    | error e => rfl
    | ok second => simp [bind, Except.bind, pure, Except.pure, Except.map, List.reduceOption_append]

theorem exists_results {entries : List Json} {posts : List Post} {skipped : Nat}
    (h : ofEntries entries = .ok (posts, skipped)) :
    ∃ results, List.Forall₂ (fun entry post? => ofEntry? entry = .ok post?) entries results ∧
      posts = results.reduceOption ∧ skipped = results.countP (·.isNone) := by
  rw [ofEntries_eq_map] at h
  cases hread : entries.mapM ofEntry? with
  | error e =>
    rw [hread] at h
    cases h
  | ok results =>
    rw [hread] at h
    cases h
    exact ⟨results, Run.mapM_eq_ok_iff.mp hread, rfl, rfl⟩

theorem length_results (results : List (Option Post)) :
    results.reduceOption.length + results.countP (·.isNone) = results.length := by
  induction results with
  | nil => rfl
  | cons post? rest ih => cases post? <;> simp <;> omega

/-- An answer that becomes posts at all loses nothing: each of its entries is read to a post or to
none, in their order, and the posts and the entries left out make up all of them. The posts are well
formed. Two lists of entries behind one another come to what they come to one by one, also where
that is a failure, and it does not matter whether a list is bare or stands under its name. -/
theorem ofPayload_nothing_lost (payload : Json) (posts : List Post) (skipped : Nat)
    (h : ofPayload payload = .ok (posts, skipped)) :
    posts.length + skipped = (itemsOf payload).length ∧
    (∃ results,
      List.Forall₂ (fun entry post? => ofEntry? entry = .ok post?) (itemsOf payload) results ∧
      posts = results.reduceOption ∧ skipped = results.countP (·.isNone)) ∧
    (∀ p ∈ posts, p.WellFormed ∧ (p.isInvalid = true ↔ p.deleted = true ∨ p.fileUrl = none)) ∧
    (∀ xs ys, ofPayload (.array (xs ++ ys)) = do
      let first ← ofPayload (.array xs)
      let second ← ofPayload (.array ys)
      pure (first.1 ++ second.1, first.2 + second.2)) ∧
    ∀ ms xs, Json.Members.get? ms "posts" = some (.array xs) →
      ofPayload (.object ms) = ofPayload (.array xs) := by
  obtain ⟨results, hresults, rfl, rfl⟩ := exists_results h
  refine ⟨?_, ⟨results, hresults, rfl, rfl⟩, fun p hp => ?_, ofEntries_append,
    fun ms xs hposts => ?_⟩
  · rw [hresults.length_eq, length_results]
  · rw [ofPayload, ofEntries_eq, afterReading_eq_ok, Prod.mk.injEq] at h
    rw [h.2.1] at hp
    obtain ⟨entry, -, hnormal⟩ := List.mem_filterMap.mp hp
    have hform := wellFormed_of_normal hnormal
    exact ⟨hform, hform.isInvalid_iff⟩
  · have hitems : itemsOf (.object ms) = xs := by simp [itemsOf, hposts, Json.array?]
    rw [ofPayload, hitems]
    rfl

def unevenEntries : List Json :=
  [.object [("id", .string " 7 "), ("rating", .string "Safe"), ("tags", .string " solo  fox "),
      ("file", .object [("url", .string " "), ("size", .int (-1))])],
    .int 3,
    .object [("id", .int 8), ("rating", .string "x"),
      ("tags", .object [("artist", .array [.string " me ", .null])]),
      ("file", .object [("url", .string " u "), ("md5", .string "m"), ("ext", .string "png")])]]

theorem unevenEntries_nothing_lost :
    ofPayload (.array unevenEntries) =
      .ok ([⟨7, 0, "s", ["fox", "solo"], false, none, 0, none, none, 0⟩,
      ⟨8, 0, "e", ["me"], false, some "u", 0, some "m", some "png", 0⟩], 1) ∧
    2 + 1 = (itemsOf (.array unevenEntries)).length ∧
    ofPayload (.object [("posts", .array unevenEntries)]) = ofPayload (.array unevenEntries) := by
  have hread : ofPayload (.array unevenEntries) =
      .ok ([⟨7, 0, "s", ["fox", "solo"], false, none, 0, none, none, 0⟩,
      ⟨8, 0, "e", ["me"], false, some "u", 0, some "m", some "png", 0⟩], 1) := by rfl
  obtain ⟨htotal, -, -, -, hnamed⟩ := ofPayload_nothing_lost _ _ _ hread
  exact ⟨hread, htotal, hnamed _ _ rfl⟩

end Post
end Booru
