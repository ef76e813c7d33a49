import H3llo.Basis.Runs

/-! Reloading of TLS credentials.

The dispatcher watches the directories of its certificate and its key. A reported change
starts a timer, each further one starts it anew, and when it expires both files are loaded,
one after the other. The files may change at any time, also between the two reads, and a
change is reported some time after it was made. The watcher is registered before the files
are loaded for the first time.
-/

set_option autoImplicit false

namespace H3llo.H3
open H3llo.Runs

structure NotifyEvent where
  needRescan : Bool
  isAccess : Bool
  deriving DecidableEq, Repr

def shouldReload (event : NotifyEvent) : Bool := event.needRescan || !event.isAccess

/-- Reports of the watcher that ask for a reload; its errors do too. -/
def triggers : Except String NotifyEvent → Bool
  | .ok event => shouldReload event
  | .error _ => true

/-- A report that the files may have changed: an error of the watcher may hide a change, an
access that asks for no rescan is none. -/
def mayChange : Except String NotifyEvent → Bool
  | .ok ⟨false, true⟩ => false
  | _ => true

theorem triggers_eq (event : Except String NotifyEvent) : triggers event = mayChange event := by
  rcases event with error | ⟨_ | _, _ | _⟩ <;> rfl

/-- `RELOAD_DEBOUNCE`, in milliseconds. -/
def reloadDebounce : Nat := 500

inductive ServerError where
  | config (reason : String)
  deriving DecidableEq, Repr

/-- What the QUIC library makes of the credentials; the tuning is fixed. -/
structure Tls (Cert Key Config : Type) where
  newConfig : Except String Config
  certPathIsUtf8 : Bool
  loadCertChain : Config → Cert → Except String Config
  keyPathIsUtf8 : Bool
  loadPrivKey : Config → Key → Except String Config
  applyTransportConfig : Config → Except String Config

/-- The two reads of a load, and its result. -/
inductive Loader (Config : Type) where
  | idle
  | started
  | certLoaded (config : Config)
  | finished (result : Except ServerError Config)

inductive DispatcherExit where
  | setup (error : ServerError)
  | failed (reason : String)
  | stopped
  deriving DecidableEq, Repr

/-- The files, the watcher and the dispatcher. `watched` are changes not yet reported,
`debounce` is when the timer expires, and `taskFailed` tells that the last loader task
panicked. All contents that the files have had are in `certs` and `keys`. -/
structure Rotation (Cert Key Config : Type) where
  now : Nat
  cert : Cert
  key : Key
  certs : List Cert
  keys : List Key
  watched : List (Except String NotifyEvent)
  events : List (Except String NotifyEvent)
  debounce : Option Nat
  reloadPending : Bool
  loader : Loader Config
  taskFailed : Bool
  config : Option Config
  exit : Option DispatcherExit

inductive RotationAction (Cert Key : Type) where
  | wait (elapsed : Nat)
  | writeCert (cert : Cert) (event : NotifyEvent)
  | writeKey (key : Key) (event : NotifyEvent)
  | notice (event : Except String NotifyEvent)
  | report
  | receive
  | debounced
  | loadCert
  | loadKey
  | join
  | taskFails
  | watcherCloses
  | stop

variable {Cert Key Config : Type}

namespace Tls

variable (tls : Tls Cert Key Config)

/-- The part of `make_server_quiche_config` up to the certificate. -/
def loadCert (cert : Cert) : Except ServerError Config :=
  match tls.newConfig with
  | .error error => .error (.config ("quiche config: " ++ error))
  | .ok config =>
      if ¬ tls.certPathIsUtf8 then .error (.config "invalid cert path encoding")
      else
        match tls.loadCertChain config cert with
        | .error error => .error (.config ("cert: " ++ error))
        | .ok config => .ok config

def loadKey (config : Config) (key : Key) : Except ServerError Config :=
  if ¬ tls.keyPathIsUtf8 then .error (.config "invalid key path encoding")
  else
    match tls.loadPrivKey config key with
    | .error error => .error (.config ("key: " ++ error))
    | .ok config =>
        match tls.applyTransportConfig config with
        | .error error => .error (.config ("transport config: " ++ error))
        | .ok config => .ok config

def makeServerQuicheConfig (cert : Cert) (key : Key) : Except ServerError Config :=
  match tls.loadCert cert with
  | .error error => .error error
  | .ok config => tls.loadKey config key

end Tls

def Loader.afterCert : Except ServerError Config → Loader Config
  | .error error => .finished (.error error)
  | .ok config => .certLoaded config

def Loader.left : Loader Config → Nat
  | .idle => 0
  | .finished _ => 1
  | .certLoaded _ => 2
  | .started => 3

@[simp] theorem Loader.left_idle : (idle : Loader Config).left = 0 := rfl
@[simp] theorem Loader.left_started : (started : Loader Config).left = 3 := rfl
@[simp] theorem Loader.left_certLoaded (config : Config) : (certLoaded config).left = 2 := rfl
@[simp] theorem Loader.left_finished (result : Except ServerError Config) :
    (finished result).left = 1 :=
  rfl

theorem Loader.left_afterCert_le (result : Except ServerError Config) :
    (afterCert result).left ≤ 2 := by
  cases result with
  | error error => exact Nat.le_succ 1
  | ok config => exact Nat.le_refl 2

theorem Loader.left_pos {loader : Loader Config} (busy : loader ≠ .idle) : 0 < loader.left := by
  cases loader with
  | idle => exact absurd rfl busy
  | started => exact Nat.succ_pos 2
  | certLoaded config => exact Nat.succ_pos 1
  | finished result => exact Nat.succ_pos 0

namespace Rotation

def start (cert : Cert) (key : Key) : Rotation Cert Key Config where
  now := 0
  cert := cert
  key := key
  certs := [cert]
  keys := [key]
  watched := []
  events := []
  debounce := none
  reloadPending := false
  loader := .started
  taskFailed := false
  config := none
  exit := none

def handleReload (rot : Rotation Cert Key Config) (event : Except String NotifyEvent) :
    Rotation Cert Key Config :=
  if triggers event then
    { rot with debounce := some (rot.now + reloadDebounce), reloadPending := true }
  else rot

def finish (rot : Rotation Cert Key Config) : Except ServerError Config → Rotation Cert Key Config
  | .ok config => { rot with loader := .idle, config := some config }
  | .error error =>
      -- The first load has no previous certificate to retain.
      { rot with loader := .idle, exit := if rot.config.isSome then none else some (.setup error) }

variable (tls : Tls Cert Key Config)

def step (action : RotationAction Cert Key) (rot : Rotation Cert Key Config) :
    Option (Rotation Cert Key Config) :=
  if rot.exit.isSome then none
  else
    match action with
    | .wait elapsed => some { rot with now := rot.now + elapsed }
    | .writeCert cert event =>
        -- The watcher does not take a write for an access.
        if mayChange (.ok event) then
          some { rot with
            cert
            certs := rot.certs ++ [cert]
            watched := rot.watched ++ [.ok event] }
        else none
    | .writeKey key event =>
        if mayChange (.ok event) then
          some { rot with key, keys := rot.keys ++ [key], watched := rot.watched ++ [.ok event] }
        else none
    | .notice event => some { rot with watched := rot.watched ++ [event] }
    | .report =>
        match rot.watched with
        | event :: rest => some { rot with watched := rest, events := rot.events ++ [event] }
        | [] => none
    | .receive =>
        match rot.loader, rot.events with
        | .idle, event :: rest => some ({ rot with events := rest }.handleReload event)
        | _, _ => none
    | .debounced =>
        match rot.loader, rot.debounce with
        | .idle, some deadline =>
            if rot.reloadPending ∧ deadline ≤ rot.now then
              some { rot with reloadPending := false, loader := .started, taskFailed := false }
            else none
        | _, _ => none
    | .loadCert =>
        match rot.loader with
        | .started => some { rot with loader := .afterCert (tls.loadCert rot.cert) }
        | _ => none
    | .loadKey =>
        match rot.loader with
        | .certLoaded config => some { rot with loader := .finished (tls.loadKey config rot.key) }
        | _ => none
    | .join =>
        match rot.loader with
        | .finished result => some (rot.finish result)
        | _ => none
    -- Only a reload runs in a task of its own.
    | .taskFails =>
        match rot.loader, rot.config with
        | .idle, _ | _, none => none
        | _, some _ => some { rot with loader := .idle, taskFailed := true }
    | .watcherCloses =>
        match rot.loader, rot.watched, rot.events with
        | .idle, [], [] =>
            some { rot with exit := some (.failed "TLS certificate watcher event channel closed") }
        | _, _, _ => none
    | .stop =>
        match rot.loader with
        | .idle => some { rot with exit := some .stopped }
        | _ => none

/-! ## What a step can do -/

/-- Everything that a step can do to the files, the watcher and the dispatcher. -/
inductive Moves (rot : Rotation Cert Key Config) :
    RotationAction Cert Key → Rotation Cert Key Config → Prop where
  | waits (elapsed : Nat) : Moves rot (.wait elapsed) { rot with now := rot.now + elapsed }
  | writesCert {cert : Cert} {event : NotifyEvent} (reported : mayChange (.ok event) = true) :
      Moves rot (.writeCert cert event)
        { rot with cert, certs := rot.certs ++ [cert], watched := rot.watched ++ [.ok event] }
  | writesKey {key : Key} {event : NotifyEvent} (reported : mayChange (.ok event) = true) :
      Moves rot (.writeKey key event)
        { rot with key, keys := rot.keys ++ [key], watched := rot.watched ++ [.ok event] }
  | notices (event : Except String NotifyEvent) : Moves rot (.notice event)
      { rot with watched := rot.watched ++ [event] }
  | reports {event : Except String NotifyEvent} {rest : List (Except String NotifyEvent)}
      (next : rot.watched = event :: rest) :
      Moves rot .report { rot with watched := rest, events := rot.events ++ [event] }
  | receives {event : Except String NotifyEvent} {rest : List (Except String NotifyEvent)}
      (idle : rot.loader = .idle) (next : rot.events = event :: rest) :
      Moves rot .receive ({ rot with events := rest }.handleReload event)
  | fires {deadline : Nat} (idle : rot.loader = .idle) (timer : rot.debounce = some deadline)
      (pending : rot.reloadPending = true) (expired : deadline ≤ rot.now) :
      Moves rot .debounced
        { rot with reloadPending := false, loader := .started, taskFailed := false }
  | readsCert (started : rot.loader = .started) :
      Moves rot .loadCert { rot with loader := .afterCert (tls.loadCert rot.cert) }
  | readsKey {config : Config} (loaded : rot.loader = .certLoaded config) :
      Moves rot .loadKey { rot with loader := .finished (tls.loadKey config rot.key) }
  | joins {result : Except ServerError Config} (finished : rot.loader = .finished result) :
      Moves rot .join (rot.finish result)
  | fails (busy : rot.loader ≠ .idle) (running : rot.config.isSome = true) :
      Moves rot .taskFails { rot with loader := .idle, taskFailed := true }
  | exits {action : RotationAction Cert Key} {reason : DispatcherExit}
      (leaves : action = .watcherCloses ∨ action = .stop) :
      Moves rot action { rot with exit := some reason }

variable {tls} {rot next : Rotation Cert Key Config} {action : RotationAction Cert Key}

theorem moves_of_step (taken : step tls action rot = some next) :
    rot.exit = none ∧ Moves tls rot action next := by
  unfold step at taken
  split at taken
  next => cases taken
  next alive =>
    refine ⟨by simpa using alive, ?_⟩
    cases action with
    | wait elapsed =>
      cases taken
      exact .waits elapsed
    | writeCert cert event =>
      obtain ⟨reported, made⟩ := Option.ite_none_right_eq_some.mp taken
      cases made
      exact .writesCert reported
    | writeKey key event =>
      obtain ⟨reported, made⟩ := Option.ite_none_right_eq_some.mp taken
      cases made
      exact .writesKey reported
    | notice event =>
      cases taken
      exact .notices event
    | report =>
      simp only at taken
      split at taken
      next event rest queued =>
        cases taken
        exact .reports queued
      next => cases taken
    | receive =>
      simp only at taken
      split at taken
      next event rest idle queued =>
        cases taken
        exact .receives idle queued
      next => cases taken
    | debounced =>
      simp only at taken
      split at taken
      next deadline idle timer =>
        obtain ⟨⟨pending, expired⟩, made⟩ := Option.ite_none_right_eq_some.mp taken
        cases made
        exact .fires idle timer pending expired
      next => cases taken
    | loadCert =>
      simp only at taken
      split at taken
      next started =>
        cases taken
        exact .readsCert started
      next => cases taken
    | loadKey =>
      simp only at taken
      split at taken
      next config loaded =>
        cases taken
        exact .readsKey loaded
      next => cases taken
    | join =>
      simp only at taken
      split at taken
      next result finished =>
        cases taken
        exact .joins finished
      next => cases taken
    | taskFails =>
      simp only at taken
      split at taken
      next => cases taken
      next => cases taken
      next config running busy =>
        cases taken
        exact .fails busy (by rw [running]; rfl)
    | watcherCloses =>
      simp only at taken
      split at taken
      next =>
        cases taken
        exact .exits (.inl rfl)
      next => cases taken
    | stop =>
      simp only at taken
      split at taken
      next =>
        cases taken
        exact .exits (.inr rfl)
      next => cases taken

theorem handleReload_eq (rot : Rotation Cert Key Config) (event : Except String NotifyEvent) :
    (triggers event = true ∧
      rot.handleReload event =
        { rot with debounce := some (rot.now + reloadDebounce), reloadPending := true }) ∨
    (triggers event = false ∧ rot.handleReload event = rot) := by
  cases due : triggers event with
  | true => exact .inl ⟨rfl, by rw [handleReload, if_pos due]⟩
  | false => exact .inr ⟨rfl, by rw [handleReload, if_neg (by simp [due])]⟩

/-! ## The configuration in force -/

/-- Loaded from contents that the files have had, not necessarily at the same time. -/
def Made (tls : Tls Cert Key Config) (rot : Rotation Cert Key Config) (config : Config) : Prop :=
  ∃ cert ∈ rot.certs, ∃ key ∈ rot.keys, tls.makeServerQuicheConfig cert key = .ok config

structure Provenance (tls : Tls Cert Key Config) (rot : Rotation Cert Key Config) : Prop where
  cert : rot.cert ∈ rot.certs
  key : rot.key ∈ rot.keys
  inForce : ∀ config, rot.config = some config → rot.Made tls config
  half : ∀ config, rot.loader = .certLoaded config → ∃ cert ∈ rot.certs,
    tls.loadCert cert = .ok config
  whole : ∀ config, rot.loader = .finished (.ok config) → rot.Made tls config
  serves : rot.exit = none → rot.loader = .idle → rot.config.isSome = true

theorem Made.mono {other : Rotation Cert Key Config} {config : Config} (made : rot.Made tls config)
    (certs : rot.certs ⊆ other.certs) (keys : rot.keys ⊆ other.keys) : other.Made tls config := by
  obtain ⟨cert, certMem, key, keyMem, loaded⟩ := made
  exact ⟨cert, certs certMem, key, keys keyMem, loaded⟩

theorem provenance_start (cert : Cert) (key : Key) :
    Provenance tls (start cert key : Rotation Cert Key Config) where
  cert := List.mem_singleton.mpr rfl
  key := List.mem_singleton.mpr rfl
  inForce _ held := by cases held
  half _ loading := by cases loading
  whole _ loading := by cases loading
  serves _ idle := by cases idle

theorem Provenance.of_kept {other : Rotation Cert Key Config} (sound : rot.Provenance tls)
    (cert : other.cert ∈ other.certs) (key : other.key ∈ other.keys)
    (certs : rot.certs ⊆ other.certs) (keys : rot.keys ⊆ other.keys)
    (loader : other.loader = rot.loader) (config : other.config = rot.config)
    (exit : other.exit = rot.exit) : other.Provenance tls where
  cert := cert
  key := key
  inForce made held := (sound.inForce made (config ▸ held)).mono certs keys
  half made loading := by
    obtain ⟨read, member, loaded⟩ := sound.half made (loader ▸ loading)
    exact ⟨read, certs member, loaded⟩
  whole made loading := (sound.whole made (loader ▸ loading)).mono certs keys
  serves alive idle := by rw [config]; exact sound.serves (exit ▸ alive) (loader ▸ idle)

theorem provenance_handleReload (sound : rot.Provenance tls) (event : Except String NotifyEvent) :
    (rot.handleReload event).Provenance tls := by
  rcases rot.handleReload_eq event with ⟨_, eq⟩ | ⟨_, eq⟩
  · rw [eq]
    exact sound.of_kept sound.cert sound.key (List.Subset.refl _) (List.Subset.refl _) rfl rfl rfl
  · rwa [eq]

theorem provenance_finish {result : Except ServerError Config} (sound : rot.Provenance tls)
    (finished : rot.loader = .finished result) : (rot.finish result).Provenance tls := by
  cases result with
  | ok config =>
    refine ⟨sound.cert, sound.key, fun made held => ?_, nofun, nofun, fun _ _ => rfl⟩
    cases held
    exact sound.whole config finished
  | error error =>
    refine ⟨sound.cert, sound.key, sound.inForce, nofun, nofun, fun stays _ => ?_⟩
    cases held : rot.config with
    | none => simp [finish, held] at stays
    | some config => simp [finish, held]

theorem provenance_of_moves (sound : rot.Provenance tls) (moves : Moves tls rot action next) :
    next.Provenance tls := by
  have same {α : Type} (values : List α) : values ⊆ values := List.Subset.refl values
  cases moves with
  | waits elapsed => exact sound.of_kept sound.cert sound.key (same _) (same _) rfl rfl rfl
  | writesCert reported =>
    exact sound.of_kept (by simp) sound.key (List.subset_append_left _ _) (same _) rfl rfl rfl
  | writesKey reported =>
    exact sound.of_kept sound.cert (by simp) (same _) (List.subset_append_left _ _) rfl rfl rfl
  | notices event => exact sound.of_kept sound.cert sound.key (same _) (same _) rfl rfl rfl
  | reports queued => exact sound.of_kept sound.cert sound.key (same _) (same _) rfl rfl rfl
  | receives idle queued =>
    apply provenance_handleReload
    exact sound.of_kept sound.cert sound.key (same _) (same _) rfl rfl rfl
  | fires idle timer pending expired =>
    exact ⟨sound.cert, sound.key, sound.inForce, nofun, nofun, nofun⟩
  | readsCert started =>
    cases read : tls.loadCert rot.cert with
    | error error => exact ⟨sound.cert, sound.key, sound.inForce, nofun, nofun, nofun⟩
    | ok loaded =>
      refine ⟨sound.cert, sound.key, sound.inForce, fun config loading => ?_, nofun, nofun⟩
      cases loading
      exact ⟨rot.cert, sound.cert, read⟩
  | readsKey loaded =>
    refine ⟨sound.cert, sound.key, sound.inForce, nofun, fun config loading => ?_, nofun⟩
    obtain ⟨cert, member, read⟩ := sound.half _ loaded
    refine ⟨cert, member, rot.key, sound.key, ?_⟩
    rw [Tls.makeServerQuicheConfig, read]
    exact Loader.finished.inj loading
  | joins finished => exact provenance_finish sound finished
  | fails busy running =>
    exact ⟨sound.cert, sound.key, sound.inForce, nofun, nofun, fun _ _ => running⟩
  | exits leaves => exact ⟨sound.cert, sound.key, sound.inForce, sound.half, sound.whole, nofun⟩

/-- What a step does to the configuration in force: it stays, or a load has been completed. -/
theorem config_of_moves (moves : Moves tls rot action next) :
    next.config = rot.config ∨ ∃ config, rot.loader = .finished (.ok config) ∧
      next.config = some config := by
  cases moves with
  | @receives event rest idle queued =>
    rcases handleReload_eq { rot with events := rest } event with ⟨_, eq⟩ | ⟨_, eq⟩
    · exact .inl (by rw [eq])
    · exact .inl (by rw [eq])
  | @joins result finished =>
    cases result with
    | ok config => exact .inr ⟨config, finished, rfl⟩
    | error error => exact .inl rfl
  | _ => exact .inl rfl

theorem config_isSome_of_moves (held : rot.config.isSome = true)
    (moves : Moves tls rot action next) : next.config.isSome = true := by
  rcases config_of_moves moves with kept | ⟨config, _, loaded⟩
  · rwa [kept]
  · rw [loaded]
    rfl

theorem exit_of_moves (alive : rot.exit = none) (moves : Moves tls rot action next)
    (left : next.exit ≠ none) :
    action = .watcherCloses ∨ action = .stop ∨
      rot.config = none ∧ ∃ error, rot.loader = .finished (.error error) ∧
        next.exit = some (.setup error) := by
  cases moves with
  | @receives event rest idle queued =>
    rcases handleReload_eq { rot with events := rest } event with ⟨_, eq⟩ | ⟨_, eq⟩
    · exact absurd (by rw [eq]; exact alive) left
    · exact absurd (by rw [eq]; exact alive) left
  | @joins result finished =>
    cases result with
    | ok config => exact absurd alive left
    | error error =>
      cases held : rot.config with
      | none => exact .inr (.inr ⟨rfl, error, finished, by simp [finish, held]⟩)
      | some config => simp [finish, held] at left
  | exits leaves => exact leaves.imp_right .inl
  | _ => exact absurd alive left

def sampleTls : Tls Nat Nat (Nat × Nat) where
  newConfig := .ok (0, 0)
  certPathIsUtf8 := true
  loadCertChain _ cert := .ok (cert, 0)
  keyPathIsUtf8 := true
  loadPrivKey config key :=
    if config.1 = key then .ok (config.1, key) else .error "key values mismatch"
  applyTransportConfig := .ok

def sampleChanges : List (RotationAction Nat Nat) :=
  [.loadCert, .loadKey, .join, .writeCert 2 ⟨false, false⟩, .report, .receive, .wait 500,
    .debounced, .loadCert, .loadKey,
    .join, .writeKey 2 ⟨false, false⟩, .report]

def sampleRotation : Rotation Nat Nat (Nat × Nat) :=
  (run (step sampleTls) sampleChanges (start 1 1)).get rfl

def sampleFailed : Rotation Nat Nat (Nat × Nat) :=
  (run (step sampleTls) (sampleChanges.take 10) (start 1 1)).get rfl

theorem reaches_sampleFailed :
    Reaches (step sampleTls) (fun _ _ => True) (start 1 1) sampleFailed :=
  have executed : run (step sampleTls) (sampleChanges.take 10) (start 1 1) = some sampleFailed :=
    rfl
  reaches_of_run (fun _ _ _ => trivial) executed

theorem reaches_sampleRotation :
    Reaches (step sampleTls) (fun _ _ => True) (start 1 1) sampleRotation :=
  have executed : run (step sampleTls) sampleChanges (start 1 1) = some sampleRotation := rfl
  reaches_of_run (fun _ _ _ => trivial) executed

/-- A reload is due, now or once what the watcher has seen is handled. -/
def Due (rot : Rotation Cert Key Config) : Prop :=
  rot.reloadPending = true ∨ ∃ event ∈ rot.watched ++ rot.events, triggers event = true

/-- What the loader knows of the files as they are. -/
def Current (tls : Tls Cert Key Config) (rot : Rotation Cert Key Config) : Prop :=
  match rot.loader with
  | .idle =>
      rot.taskFailed = true ∨ ∀ config, tls.makeServerQuicheConfig rot.cert rot.key = .ok config →
        rot.config = some config
  | .started => True
  | .certLoaded config => tls.loadCert rot.cert = .ok config
  | .finished result => tls.makeServerQuicheConfig rot.cert rot.key = result

/-- The timer of a pending reload is never far away. -/
def Timed (rot : Rotation Cert Key Config) : Prop :=
  rot.reloadPending = true → ∃ deadline, rot.debounce = some deadline ∧
    deadline ≤ rot.now + reloadDebounce

structure Fresh (tls : Tls Cert Key Config) (rot : Rotation Cert Key Config) : Prop where
  current : rot.exit = none → rot.Due ∨ rot.Current tls
  timed : rot.Timed

theorem fresh_start (cert : Cert) (key : Key) :
    Fresh tls (start cert key : Rotation Cert Key Config) where
  current _ := .inr trivial
  timed pending := by cases pending

theorem due_of_watched {event : Except String NotifyEvent} {rest : List (Except String NotifyEvent)}
    (last : rot.watched = rest ++ [event]) (due : triggers event = true) : rot.Due :=
  .inr ⟨event, by simp [last], due⟩

theorem Due.mono {other : Rotation Cert Key Config} (due : rot.Due)
    (pending : other.reloadPending = rot.reloadPending)
    (seen : rot.watched ++ rot.events ⊆ other.watched ++ other.events) : other.Due := by
  rcases due with soon | ⟨event, member, asks⟩
  · exact .inl (pending.trans soon)
  · exact .inr ⟨event, seen member, asks⟩

theorem fresh_handleReload {event : Except String NotifyEvent}
    {rest : List (Except String NotifyEvent)} (fresh : rot.Fresh tls)
    (queued : rot.events = event :: rest) :
    ({ rot with events := rest }.handleReload event).Fresh tls := by
  rcases handleReload_eq { rot with events := rest } event with ⟨due, eq⟩ | ⟨harmless, eq⟩
  · rw [eq]
    exact ⟨fun _ => .inl (.inl rfl), fun _ => ⟨_, rfl, Nat.le_refl _⟩⟩
  · rw [eq]
    refine ⟨fun alive => ?_, fresh.timed⟩
    rcases fresh.current alive with (pending | ⟨other, member, due⟩) | current
    · exact .inl (.inl pending)
    · -- the event that asks for a reload is another one
      rw [queued] at member
      have different : other ≠ event := fun same => by simp [← same, due] at harmless
      have kept : other ∈ rot.watched ++ rest := by simpa [different] using member
      exact .inl (.inr ⟨other, kept, due⟩)
    · exact .inr current

theorem fresh_finish {result : Except ServerError Config} (fresh : rot.Fresh tls)
    (alive : rot.exit = none) (finished : rot.loader = .finished result) :
    (rot.finish result).Fresh tls := by
  cases result with
  | ok config =>
    refine ⟨fun _ => ?_, fresh.timed⟩
    rcases fresh.current alive with due | current
    · exact .inl due
    · right
      simp only [Current, finished] at current
      refine .inr fun loaded made => ?_
      change tls.makeServerQuicheConfig rot.cert rot.key = .ok loaded at made
      rw [current] at made
      exact congrArg some (Except.ok.inj made)
  | error error =>
    refine ⟨fun _ => ?_, fresh.timed⟩
    rcases fresh.current alive with due | current
    · exact .inl due
    · right
      simp only [Current, finished] at current
      refine .inr fun loaded made => ?_
      change tls.makeServerQuicheConfig rot.cert rot.key = .ok loaded at made
      rw [current] at made
      cases made

theorem fresh_of_moves (fresh : rot.Fresh tls) (alive : rot.exit = none)
    (moves : Moves tls rot action next) : next.Fresh tls := by
  cases moves with
  | waits elapsed =>
    refine ⟨fresh.current, fun pending => ?_⟩
    obtain ⟨deadline, timer, near⟩ := fresh.timed pending
    exact ⟨deadline, timer, by dsimp only; omega⟩
  | writesCert reported =>
    -- The change is not loaded yet, but its event is on the way.
    exact ⟨fun _ => .inl (due_of_watched rfl ((triggers_eq _).trans reported)), fresh.timed⟩
  | writesKey reported =>
    exact ⟨fun _ => .inl (due_of_watched rfl ((triggers_eq _).trans reported)), fresh.timed⟩
  | notices event =>
    refine ⟨fun _ => (fresh.current alive).imp_left fun due => due.mono rfl ?_, fresh.timed⟩
    intro other member
    rw [List.mem_append] at member
    simp only [List.mem_append]
    exact member.imp_left .inl
  | reports queued =>
    refine ⟨fun _ => (fresh.current alive).imp_left fun due => due.mono rfl ?_, fresh.timed⟩
    intro other member
    rw [queued] at member
    simp only [List.mem_append, List.mem_cons, List.not_mem_nil, or_false] at member ⊢
    rcases member with (head | later) | queued
    · exact .inr (.inr head)
    · exact .inl later
    · exact .inr (.inl queued)
  | receives idle queued => exact fresh_handleReload fresh queued
  -- The load that starts will read the files as they are.
  | fires idle timer pending expired => exact ⟨fun _ => .inr trivial, nofun⟩
  -- Unless another change is due, the contents read are those of the files.
  | readsCert started =>
    refine ⟨fun _ => ?_, fresh.timed⟩
    rcases fresh.current alive with due | _
    · exact .inl due
    · right
      cases read : tls.loadCert rot.cert with
      | error error => simp [Current, Loader.afterCert, Tls.makeServerQuicheConfig, read]
      | ok config => simp [Current, Loader.afterCert, read]
  | readsKey loaded =>
    refine ⟨fun _ => ?_, fresh.timed⟩
    rcases fresh.current alive with due | current
    · exact .inl due
    · right
      simp only [Current, loaded] at current
      simp only [Current, Tls.makeServerQuicheConfig, current]
  | joins finished => exact fresh_finish fresh alive finished
  | fails busy running =>
    refine ⟨fun _ => ?_, fresh.timed⟩
    exact .inr (.inl rfl)
  | exits leaves => exact ⟨nofun, fresh.timed⟩

theorem fresh_of_reaches {cert : Cert} {key : Key}
    (reached : Reaches (step tls) (fun _ _ => True) (start cert key) rot) : rot.Fresh tls :=
  reached.invariant (fresh_start cert key) fun before action after fresh _ taken => by
    have moved := moves_of_step taken
    exact fresh_of_moves fresh moved.1 moved.2

/-! ## Reloads come to an end -/

def handling : RotationAction Cert Key → Bool
  | .report | .receive => true
  | _ => false

def loading : RotationAction Cert Key → Bool
  | .debounced | .loadCert | .loadKey | .join | .taskFails => true
  | _ => false

def internal (action : RotationAction Cert Key) : Bool := handling action || loading action

def harmless : RotationAction Cert Key → Bool
  | .notice event => !mayChange event
  | _ => false

def quiet : RotationAction Cert Key → Bool
  | .wait _ => true
  | action => internal action || harmless action

def outstanding (rot : Rotation Cert Key Config) : Nat :=
  (rot.watched ++ rot.events).countP mayChange + rot.reloadPending.toNat

/-- An upper bound on the steps of loading that are left: a change is loaded in four. -/
def loadWork (rot : Rotation Cert Key Config) : Nat := 4 * rot.outstanding + rot.loader.left

def eventWork (rot : Rotation Cert Key Config) : Nat := 2 * rot.watched.length + rot.events.length

theorem outstanding_receive_le {event : Except String NotifyEvent}
    {rest : List (Except String NotifyEvent)} (queued : rot.events = event :: rest) :
    ({ rot with events := rest }.handleReload event).outstanding ≤ rot.outstanding := by
  rcases handleReload_eq { rot with events := rest } event with ⟨due, eq⟩ | ⟨unchanged, eq⟩
  · rw [triggers_eq] at due
    simp only [eq, outstanding, queued, List.countP_append, List.countP_cons, due, if_true,
      Bool.toNat_true]
    omega
  · rw [triggers_eq] at unchanged
    simp [eq, outstanding, queued, List.countP_append, unchanged]

theorem handleReload_loader (rot : Rotation Cert Key Config) (event : Except String NotifyEvent) :
    (rot.handleReload event).loader = rot.loader := by
  rcases rot.handleReload_eq event with ⟨_, eq⟩ | ⟨_, eq⟩
  · rw [eq]
  · rw [eq]

theorem eventWork_handleReload (rot : Rotation Cert Key Config)
    (event : Except String NotifyEvent) : (rot.handleReload event).eventWork = rot.eventWork := by
  rcases rot.handleReload_eq event with ⟨_, eq⟩ | ⟨_, eq⟩
  · rw [eq]
    rfl
  · rw [eq]

theorem loadWork_finish_lt {result : Except ServerError Config}
    (finished : rot.loader = .finished result) :
    1 + (rot.finish result).loadWork ≤ rot.loadWork := by
  cases result with
  | ok config =>
    simp only [loadWork, outstanding, finish, finished, Loader.left_idle, Loader.left_finished]
    omega
  | error error =>
    simp only [loadWork, outstanding, finish, finished, Loader.left_idle, Loader.left_finished]
    omega

theorem eventWork_finish (rot : Rotation Cert Key Config) (result : Except ServerError Config) :
    (rot.finish result).eventWork = rot.eventWork := by
  cases result with
  | ok config => rfl
  | error error => rfl

theorem loadWork_of_step (quietly : quiet action = true) (taken : step tls action rot = some next) :
    (if loading action then 1 else 0) + next.loadWork ≤ rot.loadWork := by
  cases (moves_of_step taken).2 with
  | waits elapsed => simp [loading, loadWork, outstanding]
  | writesCert reported => cases quietly
  | writesKey reported => cases quietly
  | notices event =>
    -- what is no change adds nothing
    have unchanged : mayChange event = false := by
      simpa [quiet, internal, handling, loading, harmless] using quietly
    simp [loading, loadWork, outstanding, List.countP_append, unchanged]
  | reports queued =>
    simp only [loading, loadWork, outstanding, queued, List.countP_append, List.countP_cons,
      List.countP_nil, Bool.false_eq_true, if_false]
    omega
  | @receives event rest idle queued =>
    have spent := outstanding_receive_le queued
    have same := handleReload_loader { rot with events := rest } event
    simp only [loadWork, same, loading, Bool.false_eq_true, if_false]
    omega
  | fires idle timer pending expired =>
    simp only [loading, loadWork, outstanding, idle, pending, Loader.left_idle, Loader.left_started,
      if_true, Bool.toNat_true, Bool.toNat_false]
    omega
  | readsCert started =>
    have read := Loader.left_afterCert_le (tls.loadCert rot.cert)
    simp only [loading, loadWork, outstanding, started, Loader.left_started, if_true]
    omega
  | readsKey loaded =>
    simp only [loading, loadWork, outstanding, loaded, Loader.left_certLoaded, Loader.left_finished,
      if_true]
    omega
  | joins finished =>
    have spent := loadWork_finish_lt finished
    simp only [loading, if_true]
    omega
  | fails busy running =>
    have some := Loader.left_pos busy
    simp only [loading, loadWork, outstanding, if_true, Loader.left_idle]
    omega
  | exits leaves =>
    rcases leaves with rfl | rfl
    · cases quietly
    · cases quietly

theorem eventWork_of_step (quietly : quiet action = true)
    (taken : step tls action rot = some next) :
    (if handling action then 1 else 0) + next.eventWork ≤
      rot.eventWork + (if harmless action then 2 else 0) := by
  cases (moves_of_step taken).2 with
  | writesCert reported => cases quietly
  | writesKey reported => cases quietly
  | notices event =>
    have harmlessly : harmless (.notice event : RotationAction Cert Key) = true := by
      simpa [quiet, internal, handling, loading] using quietly
    simp only [handling, harmlessly, eventWork, List.length_append, List.length_singleton, if_true,
      Bool.false_eq_true, if_false]
    omega
  | reports queued =>
    simp only [handling, harmless, eventWork, queued, List.length_append, List.length_cons,
      List.length_nil, if_true]
    omega
  | @receives event rest idle queued =>
    rw [eventWork_handleReload]
    simp only [eventWork, queued, List.length_cons, handling, harmless, if_true]
    omega
  | @joins result finished =>
    rw [eventWork_finish]
    simp [handling, harmless]
  | exits leaves =>
    rcases leaves with rfl | rfl
    · cases quietly
    · cases quietly
  | _ => simp [handling, harmless, eventWork]

theorem files_of_step (quietly : quiet action = true) (taken : step tls action rot = some next) :
    next.cert = rot.cert ∧ next.key = rot.key := by
  cases (moves_of_step taken).2 with
  | writesCert reported => cases quietly
  | writesKey reported => cases quietly
  | @receives event rest idle queued =>
    rcases handleReload_eq { rot with events := rest } event with ⟨_, eq⟩ | ⟨_, eq⟩
    · rw [eq]
      exact ⟨rfl, rfl⟩
    · rw [eq]
      exact ⟨rfl, rfl⟩
  | @joins result finished =>
    cases result with
    | ok config => exact ⟨rfl, rfl⟩
    | error error => exact ⟨rfl, rfl⟩
  | _ => exact ⟨rfl, rfl⟩

theorem files_of_quiet
    (quietly : Reaches (step tls) (fun _ action => quiet action = true) rot next) :
    next.cert = rot.cert ∧ next.key = rot.key := by
  induction quietly with
  | refl => exact ⟨rfl, rfl⟩
  | next _ quietly taken same =>
    have kept := files_of_step quietly taken
    exact ⟨kept.1.trans same.1, kept.2.trans same.2⟩

/-- The watcher and the dispatcher have nothing left to do, also when the timer has expired. -/
def Settled (tls : Tls Cert Key Config) (rot : Rotation Cert Key Config) : Prop :=
  ∀ action, internal action = true → step tls action { rot with now := rot.now + reloadDebounce } =
    none

theorem Settled.idle (settled : rot.Settled tls) (alive : rot.exit = none) :
    rot.loader = .idle := by
  cases busy : rot.loader with
  | idle => rfl
  | started =>
    have enabled := settled .loadCert rfl
    simp [step, alive, busy] at enabled
  | certLoaded config =>
    have enabled := settled .loadKey rfl
    simp [step, alive, busy] at enabled
  | finished result =>
    have enabled := settled .join rfl
    simp [step, alive, busy] at enabled

theorem Settled.not_due (settled : rot.Settled tls) (alive : rot.exit = none)
    (timed : rot.Timed) : ¬ rot.Due := by
  have idle := settled.idle alive
  have reported : rot.watched = [] := by
    cases queued : rot.watched with
    | nil => rfl
    | cons event rest =>
      have enabled := settled .report rfl
      simp [step, alive, queued] at enabled
  have received : rot.events = [] := by
    cases queued : rot.events with
    | nil => rfl
    | cons event rest =>
      have enabled := settled .receive rfl
      simp [step, alive, idle, queued] at enabled
  rintro (pending | ⟨event, member, asks⟩)
  · obtain ⟨deadline, timer, near⟩ := timed pending
    have enabled := settled .debounced rfl
    simp [step, alive, idle, timer, pending, near] at enabled
  · simp [reported, received] at member

def sampleQuiet : List (RotationAction Nat Nat) :=
  [.receive, .wait 500, .debounced, .loadCert, .notice (.ok ⟨false, true⟩), .loadKey, .join,
    .report, .receive]

def sampleSettled : Rotation Nat Nat (Nat × Nat) :=
  (run (step sampleTls) sampleQuiet sampleRotation).get rfl

theorem settled_sampleSettled : sampleSettled.Settled sampleTls := by
  intro action own
  cases action with
  | report => rfl
  | receive => rfl
  | debounced => rfl
  | loadCert => rfl
  | loadKey => rfl
  | join => rfl
  | taskFails => rfl
  | _ => cases own

/-- No pending reload is due before `earliest`. -/
structure Holds (rot : Rotation Cert Key Config) (earliest : Nat) : Prop where
  later : earliest ≤ rot.now + reloadDebounce
  timer : rot.reloadPending = true → ∃ deadline, rot.debounce = some deadline ∧ earliest ≤ deadline

theorem holds_of_moves {earliest : Nat} (holds : rot.Holds earliest)
    (moves : Moves tls rot action next) : next.Holds earliest := by
  cases moves with
  | waits elapsed => exact ⟨Nat.le_trans holds.later (by dsimp only; omega), holds.timer⟩
  | @receives event rest idle queued =>
    rcases handleReload_eq { rot with events := rest } event with ⟨_, eq⟩ | ⟨_, eq⟩
    · rw [eq]
      exact ⟨holds.later, fun _ => ⟨_, rfl, holds.later⟩⟩
    · rw [eq]
      exact ⟨holds.later, holds.timer⟩
  | fires idle timer pending expired => exact ⟨holds.later, nofun⟩
  | @joins result finished =>
    cases result with
    | ok config => exact ⟨holds.later, holds.timer⟩
    | error error => exact ⟨holds.later, holds.timer⟩
  | _ => exact ⟨holds.later, holds.timer⟩

/-- After a change was received no load starts for the quiet period, whatever else happens: changes
of several files that follow one another closely are loaded together. -/
theorem reload_debounced {event : Except String NotifyEvent}
    {rest : List (Except String NotifyEvent)} {received later started : Rotation Cert Key Config}
    (queued : rot.events = event :: rest) (asks : triggers event = true)
    (taken : step tls .receive rot = some received)
    (continued : Reaches (step tls) (fun _ _ => True) received later)
    (fired : step tls .debounced later = some started) : rot.now + reloadDebounce ≤ later.now := by
  have held : received.Holds (rot.now + reloadDebounce) := by
    cases (moves_of_step taken).2 with
    | receives idle other =>
      cases queued.symm.trans other
      rw [handleReload, if_pos asks]
      exact ⟨Nat.le_refl _, fun _ => ⟨_, rfl, Nat.le_refl _⟩⟩
    | exits leaves => rcases leaves with leaves | leaves <;> cases leaves
  have holds := continued.invariant held fun before action after holds _ taken =>
    holds_of_moves holds (moves_of_step taken).2
  cases (moves_of_step fired).2 with
  | fires idle timer pending expired =>
    obtain ⟨deadline, own, after⟩ := holds.timer pending
    cases timer.symm.trans own
    exact Nat.le_trans after expired
  | exits leaves => rcases leaves with leaves | leaves <;> cases leaves

def sampleReceived : Rotation Nat Nat (Nat × Nat) :=
  (step sampleTls .receive sampleRotation).get rfl

def sampleExpired : Rotation Nat Nat (Nat × Nat) :=
  (run (step sampleTls) [.wait 300, .wait 200] sampleReceived).get rfl

theorem reload_debounced_sample : (step sampleTls .debounced sampleExpired).isSome = true ∧
    sampleRotation.now + reloadDebounce ≤ sampleExpired.now := by
  have executed : run (step sampleTls) [.wait 300, .wait 200] sampleReceived = some sampleExpired :=
    rfl
  have continued : Reaches (step sampleTls) (fun _ _ => True) sampleReceived sampleExpired :=
    reaches_of_run (fun _ _ _ => trivial) executed
  exact ⟨rfl, reload_debounced rfl rfl rfl continued rfl⟩

end Rotation
end H3llo.H3
