import Booru.Time.MailDate
import Booru.Failure

/-! Requests that are made again. A policy says how often and how long to wait in between; a server
may ask for a wait of its own. Durations are of any type with ordered arithmetic, so that the rules
can be read over exact numbers as well as over doubles. -/

/-! ### The wait that a server asks for -/

namespace Booru.Retry

def greater {α : Type} [LT α] [DecidableLT α] (a b : α) : α := if a < b then b else a

def lesser {α : Type} [LT α] [DecidableLT α] (a b : α) : α := if b < a then b else a

def secondsOf (micros : Int) : Float :=
  let x := Decimal.nearest micros.natAbs (-6)
  if micros < 0 then -x else x

def readHint (now : Time.Instant) (value : String) : Except RangeError (Option Float) :=
  let text := Text.strip value
  if text.isEmpty then .ok none
  else match Decimal.read? text with
    | some seconds => .ok (some (greater 0 seconds))
    | none =>
      match Time.MailDate.read? text with
      | none => .ok none
      | some date =>
        date.instant?.map fun t => t.map fun t => greater 0 (secondsOf (t.micros - now.micros))

/-! ### Policies -/

/-- At most `maxAttempts` requests in all. The wait doubles with each failure from `baseDelay` on up
to `maxDelay`, and is spread by `jitterRatio` either way. What a server asks for counts up to
`hintCap`, or in full where that is zero. -/
structure Policy (α : Type) where
  maxAttempts : Int
  baseDelay : α
  maxDelay : α
  jitterRatio : α
  hintCap : α
  statuses : List Int

def retryStatuses : List Int := [421, 429, 500, 502, 503, 504, 520, 521, 522, 524]

def Policy.standard : Policy Float := ⟨4, 1, 30, 0.2, 120, retryStatuses⟩

structure Verdict (α : Type) where
  retry : Bool
  reason : Option String := none
  status : Option Int := none
  hint : Option α := none

namespace Policy

variable {α : Type} [OfNat α 0] [OfNat α 1] [Add α] [Sub α] [Mul α] [Neg α] [LT α] [LE α]
  [DecidableLT α] [DecidableLE α] [BEq α]

def check (p : Policy α) : Except PolicyError Unit :=
  if p.maxAttempts < 1 then .error .attempts
  else if p.baseDelay < 0 then .error .baseDelay
  else if p.maxDelay < 0 then .error .maxDelay
  else if p.maxDelay < p.baseDelay then .error .delayOrder
  else if !(0 ≤ p.jitterRatio && p.jitterRatio ≤ 1) then .error .jitter
  else if p.hintCap < 0 then .error .cap
  else .ok ()

def isValid (p : Policy α) : Bool := match p.check with
  | .ok _ => true
  | .error _ => false

def doubled : Nat → α
  | 0 => 1
  | n + 1 => doubled n * (1 + 1)

def maxDoublings : Nat := 1024

def capped (p : Policy α) (hint : α) : α := if 0 < p.hintCap then lesser hint p.hintCap else hint

def wait (p : Policy α) (failures : Int) (hint : Option α) : Except RangeError α :=
  let doublings := (failures - 1).toNat
  if maxDoublings ≤ doublings then .error .wait
  else
    let computed := lesser p.maxDelay (p.baseDelay * doubled doublings)
    .ok (match hint with
      | none => computed
      | some h => greater computed (p.capped h))

def jittered (p : Policy α) (draw seconds : α) : α :=
  if seconds ≤ 0 || p.jitterRatio == 0 then greater 0 seconds
  else
    let spread := -p.jitterRatio + (p.jitterRatio - -p.jitterRatio) * draw
    greater 0 (seconds * (1 + spread))

def verdict (p : Policy α) (readHint : String → Except Failure (Option α)) (f : Failure) :
    Except Failure (Verdict α) :=
  match f with
  | .badStatus r =>
    let reason := some ("http_" ++ toString r.status)
    if p.statuses.contains r.status then
      (match r.header? "Retry-After" with
        | some value => readHint value
        | none => .ok none).map fun hint => ⟨true, reason, some r.status, hint⟩
    else .ok ⟨false, reason, some r.status, none⟩
  | f =>
    if f.kind = .http then .ok { retry := false, reason := some "http_status" }
    else if f.kind.isTimeout then .ok { retry := true, reason := some "timeout" }
    else if f.kind.isConnection then .ok { retry := true, reason := some "connection_error" }
    else .ok { retry := false }

end Policy

/-! ### The loop -/

structure Event (α : Type) where
  operation : String
  url : String
  attempt : Nat
  maxAttempts : Int
  delay : α
  reason : Option String
  status : Option Int
  error : String

/-- What a request runs against: the asking itself, and the means to release a response, to read the
wait a server asks for, to draw a number from zero to one, to wait, and to tell of a retry. -/
structure Surroundings (σ α : Type) where
  ask : Run σ Response
  release : Response → σ → σ
  readHint : String → σ → Except Failure (Option α)
  draw : σ → α × σ
  sleep : α → σ → σ
  onRetry : Event α → Run σ Unit

namespace Surroundings

variable {σ α : Type} [OfNat α 0] [OfNat α 1] [Add α] [Sub α] [Mul α] [Neg α] [LT α] [LE α]
  [DecidableLT α] [DecidableLE α] [BEq α]

def attempt (w : Surroundings σ α) : Run σ Response := do
  let r ← w.ask
  if r.isError then throw (.badStatus r) else pure r

def releaseFailed (w : Surroundings σ α) (f : Failure) : Run σ Unit :=
  match f with
  | .badStatus r => modify (w.release r)
  | _ => pure ()

/-- What happens between a failed attempt and the next: the response is released, the wait computed
and told of, and slept if it is positive. -/
def pause (w : Surroundings σ α) (p : Policy α) (operation url : String)
    (attempt : Nat) (f : Failure)
    (v : Verdict α) : Run σ Unit := do
  w.releaseFailed f
  let wait ← Run.lift ((p.wait attempt v.hint).mapError .range)
  let seconds ← modifyGet w.draw
  let delay := p.jittered seconds wait
  w.onRetry
    { operation, url, attempt, maxAttempts := p.maxAttempts, delay, reason := v.reason,
      status := v.status, error := Text.strip f.message }
  if 0 < delay then modify (w.sleep delay)

/-- The attempts from number `attempt` on, with `left` more of them allowed behind it. -/
def attempts (w : Surroundings σ α) (p : Policy α) (operation url : String) :
    Nat → Nat → Run σ Response
  | left, attempt =>
    tryCatch w.attempt fun f => do
      if !f.kind.isRequest then throw f
      let v ← Run.lift (p.verdict (w.readHint · (← get)) f)
      match left with
      | 0 => throw f
      | left + 1 =>
        if !v.retry then throw f
        w.pause p operation url attempt f v
        w.attempts p operation url left (attempt + 1)

def send (w : Surroundings σ α) (p : Policy α) (operation url : String) : Run σ Response :=
  w.attempts p operation url (p.maxAttempts - 1).toNat 1

end Surroundings
end Booru.Retry
