import Booru.Proofs.Client.Contract
import Booru.Proofs.Client.Delays

/-! Whole runs with failures in between that are asked for again: the blacklist of a session,
searches, and everything that a grabber gathers. -/

namespace Booru

open Run Retry

variable {blocks : List Block} {otherwise : Exchange} {told : List (Event Float)}

namespace Behind

variable {s t : World} (h : Behind blocks otherwise told s t)
include h

theorem withFiles (files : FileSystem) :
    Behind blocks otherwise told { s with files } { t with files } := by
  obtain ⟨used, left, events, hall, hprompt, hdelayed, huntold, htold, hcount, hapart⟩ := h
  exact .intro used left events hall hprompt hdelayed huntold htold hcount
    (congrArg (fun w => { w with files }) hapart)

theorem apart_eq : s.apart = t.apart := by
  obtain ⟨_, _, _, _, _, _, _, _, _, hapart⟩ := h
  exact hapart

theorem files_eq : s.files = t.files := (congrArg World.files h.apart_eq :)

theorem now_eq : s.now = t.now := (congrArg World.now h.apart_eq :)

end Behind

theorem Logger.alike_log (l : Logger) (level : Level) (event : String) (fields : Json.Members) :
    Run.Alike (Behind blocks otherwise told) (l.log level event fields)
      (l.log level event fields) := by
  unfold Logger.log Logger.event
  refine .bind ?_ fun _ s t h => ?_
  · unfold Logger.checkNames
    split
    · exact .pure ()
    · exact .throw _
  · have hget (w : World) : (get : Run World World) w = (.ok w, w) := rfl
    have hopen : l.isOpen s = l.isOpen t := by rw [Logger.isOpen, h.files_eq, Logger.isOpen]
    simp only [bind_apply, hget, hopen, h.now_eq, Run.lift]
    generalize (RunLog.record t.now l.session level.name event _).write (Json.render .line) = line
    cases line with
    | error f => exact ⟨rfl, h⟩
    | ok line =>
      dsimp only
      split
      · exact ⟨rfl, h⟩
      · simp only [World.onFiles, World.within, h.files_eq]
        exact ⟨rfl, h.withFiles _⟩

def Journal.ofLog (log : Option Logger) : Journal World := log.map fun l => l.log

theorem Journal.alike_ofLog (log : Option Logger) :
    Journal.Alike (Behind blocks otherwise told) (.ofLog log) (.ofLog log) := by
  cases log with
  | none => exact fun _ _ _ => .pure ()
  | some l => exact l.alike_log

def Grabber.over (g : Grabber World) (c : Client) (log : Option Logger) : Grabber World :=
  { g with board := c.board, search := { g.search with journal := .ofLog log } }

def Gathering.onward {α : Type} (haul : Haul) (x : Gathering World α) (w : World) :
    (Except Failure α × Haul) × World :=
  let (result, t, haul) := x (w, haul)
  ((result, haul), t)

def World.facing (w : World) (script : Script) : World :=
  { w with session := { w.session with script } }

/-- With the delays `x` comes to what it comes to without them. -/
def Withstands {β : Type} (blocks : List Block) (otherwise : Exchange) (w : World)
    (x : World → β × World) :
    Prop :=
  ∃ result s t, x (w.facing (Block.prompt blocks otherwise)) = (result, s) ∧
    x (w.facing (Block.delayed blocks otherwise)) = (result, t) ∧
      Behind blocks otherwise w.retries s t

theorem behind_facing (blocks : List Block) (otherwise : Exchange) (w : World) :
    Behind blocks otherwise w.retries (w.facing (Block.prompt blocks otherwise))
      (w.facing (Block.delayed blocks otherwise)) :=
  .intro [] blocks [] rfl rfl rfl rfl (List.append_nil _).symm rfl rfl

theorem Run.Alike.withstands {α : Type} {w : World} {x : Run World α}
    (h : Run.Alike (Behind blocks otherwise w.retries) x x) : Withstands blocks otherwise w x := by
  obtain ⟨hresult, hend⟩ := h _ _ (behind_facing blocks otherwise w)
  exact ⟨_, _, (x (w.facing (Block.delayed blocks otherwise))).2, rfl,
    Prod.ext hresult.symm rfl, hend⟩

theorem Run.Alike.withstands_onward {α : Type} {w : World} {x : Gathering World α}
    (h : Run.Alike (Gathering.Even (Behind blocks otherwise w.retries)) x x) (haul : Haul) :
    Withstands blocks otherwise w (x.onward haul) := by
  obtain ⟨hresult, hend, hhaul⟩ := h (_, haul) (_, haul) ⟨behind_facing blocks otherwise w, rfl⟩
  refine ⟨_, _, (x (w.facing (Block.delayed blocks otherwise), haul)).2.1, rfl, ?_, hend⟩
  exact Prod.ext (Prod.ext hresult.symm hhaul.symm) rfl

/-- Failures that are asked for again change nothing about what a run comes to: with them in front
of its outcomes it gives the same blacklist, the same posts and counters, the same collections, or
it fails in the same way. It is told of as many retries as there are failures in front of the
outcomes that it gets to. -/
theorem runs_withstand_delays (c : Client) (log : Option Logger) (blocks : List Block)
    (otherwise : Exchange) (w : World) (hblocks : ∀ b ∈ blocks, b.Delays c.policy)
    (hotherwise : ¬ otherwise.Retried c.policy) :
    (∀ wanted, Withstands blocks otherwise w
      (c.recording.board.sessionBlacklist wanted (.ofLog log))) ∧
    (∀ (plan : SearchPlan World) tags,
      Withstands blocks otherwise w
        ({ plan with journal := .ofLog log }.run c.recording.board tags)) ∧
    ∀ (g : Grabber World) d username haul,
      Withstands blocks otherwise w
        (((g.over c.recording log).grabAll d username).onward haul) := by
  have hboard : c.recording.board.Alike (Behind blocks otherwise w.retries) c.recording.board :=
    Client.alike_board hblocks hotherwise
  have hlog : Journal.Alike (Behind blocks otherwise w.retries) (.ofLog log) (.ofLog log) :=
    Journal.alike_ofLog log
  have hplan (plan : SearchPlan World) : SearchPlan.Alike (Behind blocks otherwise w.retries)
      { plan with journal := .ofLog log } { plan with journal := .ofLog log } :=
        ⟨rfl, rfl, rfl, rfl, hlog⟩
  refine ⟨fun wanted => (hboard.sessionBlacklist wanted hlog).withstands,
    fun plan tags => ((hplan plan).run hboard tags).withstands, fun g d username haul => ?_⟩
  have hg : (g.over c.recording log).Alike (Behind blocks otherwise w.retries)
      (g.over c.recording log) :=
    ⟨hboard, hplan g.search, rfl, rfl⟩
  exact (hg.grabAll d username).withstands_onward haul

def lateSecond : List Block :=
  [⟨[], Script.notFound⟩, ⟨[.error ⟨.timeout, "too slow"⟩], Script.notFound⟩]

def firstOfAll : World := { session := { script := .unreachable }, now := ⟨0⟩, draw := 0 }

theorem delays_lateSecond : ∀ b ∈ lateSecond, b.Delays Client.visitor.policy := by
  have hnotFound : ¬ Exchange.Retried Client.visitor.policy Script.notFound := by
    intro h
    cases h with
    | status failed listed => exact absurd listed (by decide)
  intro b hb
  obtain rfl | rfl : b = ⟨[], Script.notFound⟩ ∨
      b = ⟨[.error ⟨.timeout, "too slow"⟩], Script.notFound⟩ := by
    simpa [lateSecond] using hb
  · exact ⟨hnotFound, nofun, by decide, fun n hn hle => absurd hn (by simp at hle; omega)⟩
  · refine ⟨hnotFound, ?_, by decide, fun n hn hle => ?_⟩
    · simp only [List.mem_singleton, forall_eq]
      exact ⟨.fault (.inl rfl), trivial⟩
    · obtain rfl : n = 1 := Nat.le_antisymm hle hn
      exact ⟨_, rfl⟩

theorem settled_exhausted : ¬ Exchange.Retried Client.visitor.policy Script.exhausted := by
  intro h
  cases h with
  | fault lost => simp [FailureKind.isTimeout, FailureKind.isConnection] at lost

/-- A search that does not get to the second page is not told of the request for
it that took too long. -/
theorem untold_lateSecond :
    (∀ b ∈ lateSecond, b.Delays Client.visitor.policy) ∧
    ¬ Exchange.Retried Client.visitor.policy Script.exhausted ∧
    ({ budget := 0 : SearchPlan World }.run Client.visitor.recording.board "t"
      (firstOfAll.facing (Block.delayed lateSecond Script.exhausted))).2.retries.length ≠
        (Block.failuresIn lateSecond).length := by
  refine ⟨delays_lateSecond, settled_exhausted, ?_⟩
  have hnone : ({ budget := 0 : SearchPlan World }.run Client.visitor.recording.board "t"
      (firstOfAll.facing (Block.delayed lateSecond Script.exhausted))).2.retries = [] := rfl
  rw [hnone]
  decide

/-- The page behind the request that took too long is refused all the same, and
one retry is told of. -/
theorem search_withstands_timeout : ∃ t,
    ({ budget := 0 : SearchPlan World }.run Client.visitor.recording.board "t"
      (firstOfAll.facing (Block.delayed lateSecond.tail Script.exhausted))) =
      (.error (.api (.searchRefused (some "t") 1
        "404 Client Error: Not Found for url: https://e621.net/posts.json")), t) ∧
          t.retries.length = 1 := by
  obtain ⟨result, s, t, hprompt, hdelayed, hbehind⟩ :=
  (runs_withstand_delays Client.visitor none lateSecond.tail
    Script.exhausted firstOfAll (fun b hb => delays_lateSecond b (List.mem_of_mem_tail hb))
      settled_exhausted).2.1
      { budget := 0 } "t"
  obtain ⟨used, left, events, hall, hscript, -, -, htold, hcount, -⟩ := hbehind
  cases hprompt
  refine ⟨t, hdelayed.trans ?_, ?_⟩
  · rfl
  · have hleft : left = [] := by
      have hnone : Block.prompt left Script.exhausted = .inOrder [] Script.exhausted := hscript.symm
      rw [Block.prompt] at hnone
      simpa using hnone
    rw [hleft, List.append_nil] at hall
    rw [htold, List.length_append, hcount, hall]
    rfl

end Booru
