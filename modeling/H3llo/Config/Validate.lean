import H3llo.Config.Peers

/-! The check of a whole configuration.

Durations are nanoseconds. Settings that only lead to a warning in the log are left
out, as are those that no check reads.
-/

set_option autoImplicit false
set_option linter.dupNamespace false

namespace H3llo.Config
open H3llo.Net

/-! ## Durations as text -/

def Duration.nanosPerMicro : Nat := 1000
def Duration.nanosPerMilli : Nat := 1000000
def Duration.nanosPerSec : Nat := 1000000000

open Duration

def fractionDigits (fraction width : Nat) : String :=
  let digits := (Nat.repr fraction).toList
  let padded := List.replicate (width - digits.length) '0' ++ digits
  String.ofList (padded.reverse.dropWhile (· = '0')).reverse

def decimalText (integer fraction width : Nat) (unit : String) : String :=
  if fraction = 0 then Nat.repr integer ++ unit
  else Nat.repr integer ++ "." ++ fractionDigits fraction width ++ unit

def durationText (nanos : Nat) : String :=
  if nanosPerSec ≤ nanos then decimalText (nanos / nanosPerSec) (nanos % nanosPerSec) 9 "s"
  else if nanosPerMilli ≤ nanos then
    decimalText (nanos / nanosPerMilli) (nanos % nanosPerMilli) 6 "ms"
  else if nanosPerMicro ≤ nanos then
    decimalText (nanos / nanosPerMicro) (nanos % nanosPerMicro) 3 "µs"
  else decimalText nanos 0 1 "ns"

example :
    (durationText (20 * nanosPerSec), durationText 1500000, durationText 0) =
      ("20s", "1.5ms", "0ns") := by
  decide +kernel

/-! ## Settings -/

structure Tuning.IoTuning where
  packetQueueDepth : Nat
  metricsPushInterval : Nat
  deriving DecidableEq, Repr

structure Tuning.DnsTuning where
  dnsQueryTimeout : Nat
  dnsRefreshInterval : Nat
  dnsQueryInterval : Nat
  deriving DecidableEq, Repr

structure Tuning.H3Tuning where
  h3HandshakeTimeout : Nat
  h3MaxIdleTimeout : Nat
  h3KeepaliveInterval : Nat
  h3CcAlgorithm : String
  deriving DecidableEq, Repr

structure Tuning where
  reconcileInterval : Nat
  reconnectBackoffMin : Nat
  reconnectBackoffMax : Nat
  metricsLogInterval : Nat
  io : Tuning.IoTuning
  dns : Tuning.DnsTuning
  h3 : Tuning.H3Tuning
  deriving DecidableEq, Repr

def Tuning.IoTuning.default : Tuning.IoTuning := ⟨256, 1000 * nanosPerMilli⟩

def Tuning.DnsTuning.default : Tuning.DnsTuning :=
  ⟨2 * nanosPerSec, 120 * nanosPerSec, 100 * nanosPerMilli⟩

def Tuning.H3Tuning.default : Tuning.H3Tuning :=
  ⟨5 * nanosPerSec, 60 * nanosPerSec, 20 * nanosPerSec, "none"⟩

def Tuning.default : Tuning where
  reconcileInterval := 10 * nanosPerSec
  reconnectBackoffMin := 3 * nanosPerSec
  reconnectBackoffMax := 60 * nanosPerSec
  metricsLogInterval := 3 * nanosPerSec
  io := .default
  dns := .default
  h3 := .default

structure LocalH3 where
  cert : String
  key : String
  deriving DecidableEq, Repr

structure Local where
  h3 : Option LocalH3
  tun : LocalTun
  deriving DecidableEq, Repr

structure Config where
  node : Local
  tuning : Tuning
  peers : List Peer
  deriving DecidableEq, Repr

/-! ## The checks -/

def Tuning.durationChecks (tuning : Tuning) : List (String × Nat) :=
  [("tuning.reconcile_interval", tuning.reconcileInterval),
    ("tuning.reconnect_backoff_min", tuning.reconnectBackoffMin),
    ("tuning.reconnect_backoff_max", tuning.reconnectBackoffMax),
    ("tuning.metrics_push_interval", tuning.io.metricsPushInterval),
    ("tuning.metrics_log_interval", tuning.metricsLogInterval),
    ("tuning.dns_query_timeout", tuning.dns.dnsQueryTimeout),
    ("tuning.dns_refresh_interval", tuning.dns.dnsRefreshInterval),
    ("tuning.dns_query_interval", tuning.dns.dnsQueryInterval),
    ("tuning.h3_handshake_timeout", tuning.h3.h3HandshakeTimeout),
    ("tuning.h3_max_idle_timeout", tuning.h3.h3MaxIdleTimeout),
    ("tuning.h3_keepalive_interval", tuning.h3.h3KeepaliveInterval)]

def checkPositive (field : String) (value : Nat) : List ValidationError :=
  if value = 0 then [.fieldMustBePositive field] else []

def ccAlgorithms : List String := ["reno", "cubic", "bbr", "bbr2", "none"]

def checkTuning (tuning : Tuning) : List ValidationError :=
  checkPositive "tuning.packet_queue_depth" tuning.io.packetQueueDepth ++
    tuning.durationChecks.flatMap (fun (field, duration) => checkPositive field duration) ++
    (if tuning.h3.h3MaxIdleTimeout ≤ tuning.h3.h3KeepaliveInterval then
      [.fieldConflict ("tuning.h3_keepalive_interval (" ++
        durationText tuning.h3.h3KeepaliveInterval ++
        ") must be less than tuning.h3_max_idle_timeout (" ++
          durationText tuning.h3.h3MaxIdleTimeout ++ ")")]
    else []) ++
    (if tuning.h3.h3CcAlgorithm ∈ ccAlgorithms then [] else
      [.invalidCcAlgorithm tuning.h3.h3CcAlgorithm]) ++
    (if tuning.reconnectBackoffMax < tuning.reconnectBackoffMin then
      [.fieldConflict ("tuning.reconnect_backoff_min (" ++
        durationText tuning.reconnectBackoffMin ++
        ") must not exceed tuning.reconnect_backoff_max (" ++
          durationText tuning.reconnectBackoffMax ++ ")")]
    else [])

def checkLocal (node : Local) : List ValidationError :=
  (node.h3.elim [] fun h3 => checkTrimmed h3.cert "local.h3" "cert" true ++
    checkTrimmed h3.key "local.h3" "key" true) ++
    checkNotEmpty node.tun.addrs.isEmpty "local.tun" "addrs"

def Config.validate (config : Config) : Except (List ValidationError) Unit :=
  let peerErrors :=
    match validatePeers config.peers with
    | .ok () => []
    | .error errors => errors
  match checkTuning config.tuning ++ checkLocal config.node ++ peerErrors with
  | [] => .ok ()
  | errors => .error errors

/-! ## What is accepted -/

structure TuningOk (tuning : Tuning) : Prop where
  queueDepth : 0 < tuning.io.packetQueueDepth
  durations : ∀ field ∈ tuning.durationChecks, 0 < field.2
  keepalive : tuning.h3.h3KeepaliveInterval < tuning.h3.h3MaxIdleTimeout
  ccAlgorithm : tuning.h3.h3CcAlgorithm ∈ ccAlgorithms
  backoff : tuning.reconnectBackoffMin ≤ tuning.reconnectBackoffMax

structure LocalOk (node : Local) : Prop where
  h3 : ∀ h3 ∈ node.h3, Trimmed h3.cert ∧ Trimmed h3.key
  addrs : node.tun.addrs ≠ []

theorem checkPositive_eq_nil {field : String} {value : Nat} :
    checkPositive field value = [] ↔ 0 < value := by
  simp [checkPositive, Nat.pos_iff_ne_zero]

theorem checkTuning_eq_nil {tuning : Tuning} : checkTuning tuning = [] ↔ TuningOk tuning := by
  simp only [checkTuning, List.append_eq_nil_iff, checkPositive_eq_nil, List.flatMap_eq_nil_iff,
    ite_eq_right_iff, ite_eq_left_iff, List.cons_ne_nil, imp_false, Nat.not_le, Nat.not_lt,
    Decidable.not_not]
  constructor
  · intro ⟨⟨⟨⟨depth, durations⟩, keepalive⟩, algorithm⟩, backoff⟩
    exact ⟨depth, durations, keepalive, algorithm, backoff⟩
  · intro ok
    exact ⟨⟨⟨⟨ok.queueDepth, ok.durations⟩, ok.keepalive⟩, ok.ccAlgorithm⟩, ok.backoff⟩

theorem checkLocal_eq_nil {node : Local} : checkLocal node = [] ↔ LocalOk node := by
  have h3 : (node.h3.elim [] fun h3 =>
      checkTrimmed h3.cert "local.h3" "cert" true ++ checkTrimmed h3.key "local.h3" "key" true) =
        [] ↔
      ∀ h3 ∈ node.h3, Trimmed h3.cert ∧ Trimmed h3.key := by
    cases node.h3 <;> simp [checkTrimmed_eq_nil]
  rw [checkLocal, List.append_eq_nil_iff, h3]
  constructor
  · intro ⟨h3, addrs⟩
    exact ⟨h3, by simpa [checkNotEmpty] using addrs⟩
  · intro ok
    exact ⟨ok.h3, by simpa [checkNotEmpty] using ok.addrs⟩

/-- A configuration is accepted when tuning, local settings and peers are. Nothing
relates the peers to the local settings. -/
theorem validate_ok_iff {config : Config} :
    config.validate = .ok () ↔ TuningOk config.tuning ∧ LocalOk config.node ∧
    validatePeers config.peers = .ok () := by
  have peers : (match validatePeers config.peers with
      | .ok () => []
      | .error errors => errors) = [] ↔ validatePeers config.peers = .ok () := by
    unfold validatePeers
    cases checkPeers ⟨∅, ∅⟩ config.peers <;> simp
  rw [← checkTuning_eq_nil, ← checkLocal_eq_nil, ← peers]
  unfold Config.validate
  simp only
  split <;> simp_all

theorem tuningOk_default : TuningOk .default := checkTuning_eq_nil.mp (by decide +kernel)

end H3llo.Config
