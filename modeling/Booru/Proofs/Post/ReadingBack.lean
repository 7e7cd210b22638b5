import Booru.Proofs.Post.Forms
import Booru.Proofs.Search.ThreeWays

/-! Posts that are written out and read again. The records name the fields of a post flatly, and the
reader takes most of them from other places: what comes through is the number, the uploader, the
rating and the score. -/

namespace Booru

namespace Post

variable {p : Post} {ps : List Post}

def recordsOf (ps : List Post) : Json := .object [("posts", .array (ps.map record))]

def Produced (p : Post) : Prop := ∃ entry, ofEntry? entry = .ok (some p)

/-- What is left of a post that was written out, once it is read again. -/
def reread (p : Post) : Post :=
  { p with
    tags := []
    deleted := false
    fileUrl := none
    md5 := none
    fileExt := none
    fileSize := 0 }

theorem ratingOf_self {rating : String} (h : rating ∈ ["s", "q", "e"]) :
    ratingOf (.string rating) = rating := by
  simp only [List.mem_cons, List.not_mem_nil, or_false] at h
  rcases h with rfl | rfl | rfl <;> decide

theorem Produced.rating (h : p.Produced) : p.rating ∈ ["s", "q", "e"] := by
  obtain ⟨entry, hentry⟩ := h
  rw [ofEntry_eq, afterReading_eq_ok] at hentry
  have hnormal := hentry.2
  cases entry with
  | object ms =>
    obtain ⟨id, -, hp⟩ := Option.map_eq_some_iff.mp hnormal.symm
    have hrating : p.rating = ratingOf ((Json.object ms).member "rating") := by rw [← hp]
    rw [hrating]
    exact ratingOf_mem _
  | _ => cases hnormal

theorem normal_record (h : p.Produced) : normal? p.record = some p.reread := by
  have hnormal : normal? p.record = some { p.reread with rating := ratingOf (.string p.rating) } :=
    rfl
  rw [hnormal, ratingOf_self h.rating]
  rfl

theorem readable_record (p : Post) : Readable p.record :=
  ⟨normal? p.record, by rw [ofEntry_eq]; rfl⟩

theorem filterMap_normal_records (h : ∀ p ∈ ps, p.Produced) :
    (ps.map record).filterMap normal? = ps.map reread := by
  rw [List.filterMap_map, ← List.filterMap_eq_map]
  exact List.filterMap_congr fun p hp => normal_record (h p hp)

theorem isInvalid_reread (p : Post) : p.reread.isInvalid = true := rfl

theorem sift_records (b : Blacklist) (h : ∀ p ∈ ps, p.Produced) :
    sift (some b) (ps.map record) =
      ⟨[], 0, (ps.map reread).countP b.hides, (ps.map reread).countP (!b.hides ·)⟩ := by
  have hskipped : (ps.map record).countP (fun entry => (normal? entry).isNone) = 0 := by
    rw [List.countP_eq_zero]
    intro entry hentry
    obtain ⟨p, hp, rfl⟩ := List.mem_map.mp hentry
    simp [normal_record (h p hp)]
  have hinvalid : ∀ q ∈ ps.map reread, q.isInvalid = true := by
    simpa using fun p _ => isInvalid_reread p
  simp only [sift, filterMap_normal_records h, hskipped, hiddenBy, Option.any_some,
    Sifting.mk.injEq, true_and]
  refine ⟨List.filter_eq_nil_iff.mpr fun q hq => by simp [hinvalid q hq],
    List.countP_congr fun q hq => ?_⟩
  simp [hinvalid q hq]

end Post

/-- Records of posts are read back as posts without tags, file and mark of deletion. They are the
same posts only where they had none of these from the start, and when the records are filtered
again, with whatever blacklist, not one of them is kept. -/
theorem Post.ofPayload_recordsOf (ps : List Post) (h : ∀ p ∈ ps, p.Produced) :
    ofPayload (recordsOf ps) = .ok (ps.map reread, 0) ∧
    (ofPayload (recordsOf ps) = .ok (ps, 0) ↔ ∀ p ∈ ps, p.reread = p) ∧
    ∀ (task : FilterTask) (b : Blacklist) (w t : World), task.keepInvalid = false →
      b.isResolved = true → Command.filterInputs task w = (.ok (b, recordsOf ps), t) →
      Command.runFilter task w = Command.tellSifting task ps.length
        ⟨[], 0, (ps.map reread).countP b.hides, (ps.map reread).countP (!b.hides ·)⟩ t := by
  have hitems : itemsOf (recordsOf ps) = ps.map record := rfl
  have hreadable : ∀ entry ∈ itemsOf (recordsOf ps), Readable entry := by
    rw [hitems]
    simpa using fun p _ => readable_record p
  have hread : ofPayload (recordsOf ps) = .ok (ps.map reread, 0) := by
    rw [ofPayload, Readable.ofEntries hreadable, hitems, filterMap_normal_records h]
    have hskipped := congrArg Sifting.skipped (sift_records ⟨[]⟩ h)
    simp only [sift] at hskipped
    rw [hskipped]
  refine ⟨hread, ?_, fun task b w t hkeep hresolved hinputs => ?_⟩
  · rw [hread, Except.ok.injEq, Prod.mk.injEq, and_iff_left rfl]
    have hsame := @List.map_inj_left _ _ ps reread fun p => p
    rwa [List.map_id'] at hsame
  · rw [Command.runFilter_of_inputs hkeep hinputs hresolved hreadable, hitems,
      filterMap_normal_records h, sift_records b h, List.length_map]

def completePost : Post :=
  ⟨1, 55, "q", ["fox", "solo"], false, some "https://h/1.png", 3, some "abc", some "png", 2048⟩

theorem produced_completePost : completePost.Produced :=
  ⟨.object [("id", .int 1), ("uploader_id", .int 55), ("rating", .string "q"),
    ("tags", .string "solo fox"), ("score", .object [("total", .int 3)]),
    ("file", .object [("url", .string "https://h/1.png"), ("md5", .string "abc"),
      ("ext", .string "png"), ("size", .int 2048)])], rfl⟩

theorem complete_post_not_read_back :
    Post.ofPayload (Post.recordsOf [completePost]) =
      .ok ([⟨1, 55, "q", [], false, none, 3, none, none, 0⟩], 0) ∧
    Post.ofPayload (Post.recordsOf [completePost]) ≠ .ok ([completePost], 0) := by
  have hproduced : ∀ p ∈ [completePost], p.Produced :=
    List.forall_mem_singleton.mpr produced_completePost
  obtain ⟨hread, hsame, -⟩ := Post.ofPayload_recordsOf [completePost] hproduced
  exact ⟨hread, fun heq => absurd (List.forall_mem_singleton.mp (hsame.mp heq)) (by decide)⟩

end Booru
