/-
Settings: what the scheduler is told by named variables. Missing variables have usual values; numbers
are non-negative integers of 64 bits, some of them greater than zero.
-/
import Placement.Monitor
import Placement.Text.Blank
import Placement.Word

namespace Placement

/-- What keeps a text from being a number. -/
inductive NumberFault where
  | empty
  | invalidDigit
  | tooLarge
  deriving DecidableEq, Repr

def NumberFault.message : NumberFault → String
  | empty => "cannot parse integer from empty string"
  | invalidDigit => "invalid digit found in string"
  | tooLarge => "number too large to fit in target type"

inductive SettingsError where
  | badGpuPolicy (text : String)
  | notANumber (variableName raw : String) (fault : NumberFault)
  | zero (variableName : String)
  deriving DecidableEq, Repr

def GpuPolicy.errorMessage (text : String) : String :=
  s!"unknown gpu scheduling behavior '{text}'"

def SettingsError.message : SettingsError → String
  | badGpuPolicy text => "KEEL_GPU_SCHEDULING: " ++ GpuPolicy.errorMessage text
  | notANumber name raw fault =>
    s!"{name} must be a non-negative integer, got '{raw}': " ++ fault.message
  | zero name => s!"{name} must be greater than zero"

namespace Word64

/-- Reads further digits; the first character that is no digit, or the first digit that makes the
number too large, is told. -/
def readDigits (n : Word64) : List Char → Except NumberFault Word64
  | [] => .ok n
  | c :: rest =>
    match Text.digitValue? c with
    | none => .error .invalidDigit
    | some d =>
      if h : n.val * 10 + d < 0x10000000000000000 then readDigits ⟨n.val * 10 + d, h⟩ rest
      else .error .tooLarge

/-- Reads a number, with a plus sign or none. -/
def parse (cs : List Char) : Except NumberFault Word64 :=
  match cs with
  | [] => .error .empty
  | ['+'] => .error .invalidDigit
  | '+' :: rest => readDigits 0 rest
  | _ => readDigits 0 cs

end Word64

structure Settings where
  logLevel : String
  frameworkId : String
  /-- The role that new reservations are made for. -/
  reservationRole : String
  /-- The role that is accepted where a run spec names none. -/
  acceptedRole : String
  processorShards : Word64
  processorMailbox : Word64
  storeTimeoutMs : Word64
  opDeadlineMs : Word64
  launchUnconfirmedTimeoutSecs : Word64
  launchTimeoutSecs : Word64
  reservationTimeoutSecs : Word64
  monitorInitialDelaySecs : Word64
  monitorIntervalSecs : Word64
  terminalExpungeDelaySecs : Word64
  gpus : GpuPolicy
  deriving DecidableEq, Repr

namespace Settings

variable (lookup : String → Option String)

/-- A text, or its usual value. -/
def text (name usual : String) : String := (lookup name).getD usual

/-- A number, or its usual value. Blanks around it do not count. -/
def number (name : String) (usual : Word64) : Except SettingsError Word64 :=
  match lookup name with
  | none => .ok usual
  | some raw =>
    match Word64.parse (Text.trimBlanks raw.toList) with
    | .ok n => .ok n
    | .error fault => .error (.notANumber name raw fault)

/-- A number greater than zero, or its usual value. -/
def positive (name : String) (usual : Word64) : Except SettingsError Word64 :=
  match number lookup name usual with
  | .ok n => if n = 0 then .error (.zero name) else .ok n
  | .error e => .error e

def gpuPolicy : Except SettingsError GpuPolicy :=
  match lookup "KEEL_GPU_SCHEDULING" with
  | none => .ok .restricted
  | some raw =>
    match GpuPolicy.parse raw with
    | .ok p => .ok p
    | .error text => .error (.badGpuPolicy text)

/-- Reads all settings; of several errors the first in the order below is told. -/
def ofLookup : Except SettingsError Settings := do
  let gpus ← gpuPolicy lookup
  let shards ← positive lookup "KEEL_PROCESSOR_SHARDS" 8
  let mailbox ← positive lookup "KEEL_PROCESSOR_MAILBOX" 256
  let storeTimeout ← positive lookup "KEEL_STORE_TIMEOUT_MS" 5000
  let opDeadline ← positive lookup "KEEL_OP_DEADLINE_MS" 10000
  let unconfirmed ← number lookup "KEEL_TASK_LAUNCH_UNCONFIRMED_TIMEOUT_SECS" 300
  let launch ← number lookup "KEEL_TASK_LAUNCH_TIMEOUT_SECS" 300
  let reservation ← number lookup "KEEL_RESERVATION_TIMEOUT_SECS" 300
  let initialDelay ← number lookup "KEEL_MONITOR_INITIAL_DELAY_SECS" 30
  let interval ← positive lookup "KEEL_MONITOR_INTERVAL_SECS" 5
  let expungeDelay ← number lookup "KEEL_TERMINAL_EXPUNGE_DELAY_SECS" 0
  return {
    logLevel := text lookup "KEEL_LOG_LEVEL" "info"
    frameworkId := text lookup "KEEL_FRAMEWORK_ID" "keel"
    reservationRole := text lookup "KEEL_RESERVATION_ROLE" "keel"
    acceptedRole := text lookup "KEEL_ACCEPTED_ROLE" anyRole
    processorShards := shards
    processorMailbox := mailbox
    storeTimeoutMs := storeTimeout
    opDeadlineMs := opDeadline
    launchUnconfirmedTimeoutSecs := unconfirmed
    launchTimeoutSecs := launch
    reservationTimeoutSecs := reservation
    monitorInitialDelaySecs := initialDelay
    monitorIntervalSecs := interval
    terminalExpungeDelaySecs := expungeDelay
    gpus := gpus }

variable (s : Settings)

def processor : ProcessorSettings :=
  ⟨s.processorShards.val, s.processorMailbox.val, .ofMillis s.storeTimeoutMs,
    .ofMillis s.opDeadlineMs⟩

/-- The greatest number of seconds that a reservation can wait: its milliseconds fit 63 bits. -/
def maxReservationSecs : Nat := 9223372036854775

/-- How launches are made; the error tells that reservations would wait too long. -/
def launchPolicy? : Option LaunchPolicy :=
  if s.reservationTimeoutSecs.val ≤ maxReservationSecs then
    some ⟨s.frameworkId, s.reservationRole, s.acceptedRole,
      (s.reservationTimeoutSecs.val * 1000 : Nat)⟩
  else none

/-- What is said where `launchPolicy?` gives nothing. -/
def launchPolicyMessage : String := "reservation timeout out of range"

def monitor : MonitorSettings :=
  ⟨.ofSeconds s.launchUnconfirmedTimeoutSecs, .ofSeconds s.launchTimeoutSecs,
    .ofSeconds s.terminalExpungeDelaySecs, .ofSeconds s.monitorInitialDelaySecs,
    .ofSeconds s.monitorIntervalSecs⟩

end Settings

end Placement
