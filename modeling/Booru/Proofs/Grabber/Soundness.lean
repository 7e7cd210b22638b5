import Booru.Proofs.Grabber.Keeping

/-! Every call of a grabber keeps its haul sound, also a call that fails, and no call fails for want
of a post's address. -/

namespace Booru

open Run
open Reply (Blamed)

variable {σ : Type}

theorem Haul.Sound.mono {g : Grabber σ} {before after : List Reply} {h : Haul}
    (hsub : before ⊆ after)
    (hs : h.Sound g before) : h.Sound g after := by
  refine ⟨fun q hq => ?_, fun c hc q hq => ?_⟩
  · obtain ⟨p, hp, hrest⟩ := hs.single q hq
    exact ⟨p, hp.mono hsub, hrest⟩
  · obtain ⟨p, hp, hstands⟩ := hs.others c hc q hq
    exact ⟨p, hp.mono hsub, hstands⟩

theorem Collection.Formed.standsFor {g : Grabber σ} {replies : List Reply} {c : Collection}
    (h : c.Formed g replies) :
    ∀ q ∈ c.posts, ∃ p : Post, p.Admitted g.blacklist replies ∧ q.StandsFor p := by
  intro q hq
  cases h with
  | search place admitted grabbed =>
    obtain ⟨_, hok, hall⟩ := Post.mapM_grabbed admitted g.naming
    obtain rfl := Except.ok.inj (grabbed.symm.trans hok)
    obtain ⟨p, hp, hstands⟩ := hall q hq
    exact ⟨p, admitted p hp, hstands⟩
  | pool admitted grabbed =>
    obtain ⟨_, hok, hall⟩ := Post.grabbedPages_eq admitted _ 1
    obtain rfl := Except.ok.inj (grabbed.symm.trans hok)
    obtain ⟨p, hp, hstands⟩ := hall q hq
    exact ⟨p, admitted p hp, hstands⟩

theorem GrabbedPost.Chosen.standsFor {g : Grabber σ} {replies : List Reply} {q : GrabbedPost}
    (h : q.Chosen g replies) : ∃ p : Post,
      p.Admitted g.blacklist replies ∧ q.StandsFor p ∧ (g.safeMode = true → p.rating = "s") := by
  obtain ⟨p, hp, hq, hrating⟩ := h
  obtain ⟨_, hok, hstands⟩ := hp.grabbed_eq g.naming
  obtain rfl := Except.ok.inj (hq.symm.trans hok)
  exact ⟨p, hp, hstands, hrating⟩

namespace Grabber

variable {g : Grabber σ} {earlier : List Reply}

theorem keeps_sound (g : Grabber σ) : g.Keeps fun replies h => h.Sound g replies where
  replied hsub h := h.mono hsub
  counted _ _ h := ⟨h.single, h.others⟩
  collected {_ haul c} hc h := by
    refine ⟨h.single, fun c' hc' => ?_⟩
    rcases List.mem_append.mp hc' with hold | hnew
    · exact h.others c' hold
    · rw [List.mem_singleton.mp hnew]
      exact hc.standsFor
  chosen {_ haul q} hq h := by
    refine ⟨fun q' hq' => ?_, h.others⟩
    rcases List.mem_append.mp hq' with hold | hnew
    · exact h.single q' hold
    · rw [List.mem_singleton.mp hnew]
      exact hq.standsFor

theorem blamed_after {s : σ × Haul} (h : s.2.Sound g earlier) (c : Call) {f : Failure}
    (hf : (c.perform g s).1 = .error f) : Blamed f (g.repliesTo s c) := by
  have hend := ensures_perform earlier (keeps_sound g) c _ (intact_start h)
  rw [perform_eq] at hf
  rw [repliesTo]
  rcases hr : c.perform g.noted ((s.1, []), s.2) with ⟨f' | _, t⟩ <;> simp only [hr] at hend hf
  · exact Except.error.inj hf ▸ hend.2
  · simp at hf

theorem sound_afterAll {s : σ × Haul} (h : s.2.Sound g earlier) (calls : List Call) :
    (g.afterAll s calls).2.Sound g (earlier ++ g.replies s calls) :=
  kept_afterAll (keeps_sound g) h calls

/-- Whatever a board answers and whichever calls are made in whatever order, also where calls fail:
all that is grabbed stands for admitted posts, single posts in safe mode for safe ones, and a call
that ends for want of an address does so because board or journal failed with just that. -/
theorem grabbed_posts_admitted (g : Grabber σ) (s : σ) (calls : List Call) :
    let haul := (g.afterAll (s, {}) calls).2
    let replies := g.replies (s, {}) calls
    (∀ c ∈ haul.collections, ∀ q ∈ c.posts, ∃ p : Post,
      p.Admitted g.blacklist replies ∧ q.StandsFor p) ∧
    (g.safeMode = true → ∀ q ∈ haul.single, ∃ p : Post,
      p.Admitted g.blacklist replies ∧ q.StandsFor p ∧ p.rating = "s") ∧
    ∀ (c : Call) (id : Int),
      (c.perform g (g.afterAll (s, {}) calls)).1 = .error (.argument (.noFileUrl id)) →
      (g.repliesTo (g.afterAll (s, {}) calls) c).getLast? =
        some (.failure (.argument (.noFileUrl id))) := by
  have hempty : Haul.Sound g [] (s, ({} : Haul)).2 := ⟨by simp, by simp⟩
  have hsound : (g.afterAll (s, {}) calls).2.Sound g (g.replies (s, {}) calls) :=
    sound_afterAll hempty calls
  refine ⟨fun c hc q hq => ?_, fun hmode q hq => ?_, fun c id hf => blamed_after hsound c hf id rfl⟩
  · rcases List.mem_cons.mp hc with rfl | hother
    · obtain ⟨p, hp, hstands, -⟩ := hsound.single q hq
      exact ⟨p, hp, hstands⟩
    · exact hsound.others c hother q hq
  · obtain ⟨p, hp, hstands, hrating⟩ := hsound.single q hq
    exact ⟨p, hp, hstands, hrating hmode⟩

end Grabber
end Booru
