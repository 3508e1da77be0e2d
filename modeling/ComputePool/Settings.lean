import ComputePool.Error
import ComputePool.Text.Blank
import ComputePool.Text.Quoted

/-!
# Settings

How the pool is configured, and how the configuration is read from environment variables. A
variable that is not set, or set to bytes that are no text, leaves its default. Its value is a
number without a sign, or with a plus sign, blanks around it allowed.

The variables are read in the order of the fields, and the first bad one is reported; sizes of
zero are reported only after every variable was read.
-/

namespace ComputePool

/-- The configuration of a pool. -/
structure Settings where
  /-- The number of routines that serve update requests. -/
  poolSize : Nat
  /-- How often the routines are topped up. -/
  consumeInterval : Span
  /-- The longest life of a task; locks and requests expire after it. -/
  longestTaskTimeout : Span
  /-- How often expired locks and requests are swept. -/
  sweepInterval : Span
  /-- The attempts at admitting a worker while others change the replicate list. -/
  admissionAttempts : Nat
  /-- How often the detectors look for missed updates. -/
  detectorInterval : Span
deriving DecidableEq, Repr

/-- Causes for which an environment gives no settings. -/
inductive EnvironmentFault where
  | refused (e : SettingsError)
  /-- The timeout's number of hours has too many seconds. -/
  | overflow
deriving DecidableEq, Repr

/-- The text of an environment fault. -/
def EnvironmentFault.message : EnvironmentFault → String
  | .refused e => e.message
  | .overflow => "attempt to multiply with overflow"

/-! ## Numbers -/

/-- Causes for which a text is no number. -/
inductive NumberFault where
  | empty
  | invalidDigit
  | tooLarge
deriving DecidableEq, Repr

/-- The text of a number fault. -/
def NumberFault.message : NumberFault → String
  | .empty => "cannot parse integer from empty string"
  | .invalidDigit => "invalid digit found in string"
  | .tooLarge => "number too large to fit in target type"

/-- Reads digits from left to right onto `n`, and stops at the first character that is no digit
or takes the number to `bound`. -/
def readDigits (bound : Nat) : (n : Nat) → List Char → Except NumberFault Nat
  | n, [] => .ok n
  | n, c :: rest =>
    if c.isDigit then
      let n := 10 * n + (c.toNat - 48)
      if n < bound then readDigits bound n rest else .error .tooLarge
    else .error .invalidDigit

/-- Reads a number below `bound`, a plus sign in front allowed. -/
def readNumber (bound : Nat) : List Char → Except NumberFault Nat
  | [] => .error .empty
  | ['+'] => .error .invalidDigit
  | '+' :: rest => readDigits bound 0 rest
  | cs => readDigits bound 0 cs

/-! ## Variables -/

/-- The text of each variable that is set. -/
abbrev Environment := String → Option String

/-- The bytes of each variable that is set. -/
abbrev RawEnvironment := String → Option ByteArray

/-- The texts of the variables; bytes that are not UTF-8 have none. -/
def RawEnvironment.texts (env : RawEnvironment) : Environment := fun key =>
  (env key).bind String.fromUTF8?

/-- The number that a variable holds, if it is set. The report of a bad one quotes its text. -/
def readVariable (env : Environment) (key : String) (bound : Nat) :
    Except EnvironmentFault (Option Nat) :=
  match env key with
  | none => .ok none
  | some raw =>
    match readNumber bound (Text.trim raw.toList) with
    | .ok n => .ok (some n)
    | .error fault =>
      .error (.refused (.invalidValue key (Text.quote raw ++ ": " ++ fault.message)))

/-- The span of a number of hours, if its seconds fit 64 bits. -/
def spanOfHours (hours : Nat) : Except EnvironmentFault Span :=
  if hours * 3600 < UInt64.size then .ok (.ofSeconds (UInt64.ofNat (hours * 3600)))
  else .error .overflow

namespace Settings

/-- The variable of the pool size. -/
def poolSizeKey : String := "WORKERPOOL_UPDATE_POOL_SIZE"

/-- The variable of the attempts at admission. -/
def attemptsKey : String := "WORKERPOOL_ADMISSION_MAX_ATTEMPTS"

/-- The settings of a machine with that many processors, where nothing is configured. -/
def default (processors : Nat) : Settings where
  poolSize := 2 * processors
  consumeInterval := .ofSeconds 1
  longestTaskTimeout := .ofSeconds 360000
  sweepInterval := .ofSeconds 60
  admissionAttempts := 5
  detectorInterval := .ofSeconds 30

/-- Refuses sizes of zero. -/
def validate (s : Settings) : Except EnvironmentFault Settings :=
  if s.poolSize = 0 then .error (.refused (.invalidValue poolSizeKey "must be at least 1"))
  else if s.admissionAttempts = 0 then
    .error (.refused (.invalidValue attemptsKey "must be at least 1"))
  else .ok s

/-- Reads the settings from the environment. -/
def ofEnvironment (processors : Nat) (env : Environment) : Except EnvironmentFault Settings := do
  let d := default processors
  let poolSize ← readVariable env poolSizeKey UInt64.size
  let consume ← readVariable env "WORKERPOOL_CONSUME_INTERVAL_MS" UInt64.size
  let hours ← readVariable env "WORKERPOOL_LONGEST_TASK_TIMEOUT_HOURS" UInt64.size
  let timeout ← hours.elim (.ok d.longestTaskTimeout) spanOfHours
  let sweep ← readVariable env "WORKERPOOL_LOCK_SWEEP_INTERVAL_SECS" UInt64.size
  let attempts ← readVariable env attemptsKey UInt32.size
  let detector ← readVariable env "WORKERPOOL_DETECTOR_INTERVAL_SECS" UInt64.size
  validate {
    poolSize := poolSize.getD d.poolSize
    consumeInterval := consume.elim d.consumeInterval fun n => .ofMillis (UInt64.ofNat n)
    longestTaskTimeout := timeout
    sweepInterval := sweep.elim d.sweepInterval fun n => .ofSeconds (UInt64.ofNat n)
    admissionAttempts := attempts.getD d.admissionAttempts
    detectorInterval := detector.elim d.detectorInterval fun n => .ofSeconds (UInt64.ofNat n) }

end Settings

end ComputePool
