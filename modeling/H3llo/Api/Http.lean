import H3llo.Api.Management
import H3llo.H3.Request

/-! Requests and responses of the management API.

A request is matched by its method and by its path below the configured base path. Reading
and parsing a body and writing YAML are left to libraries, whose errors end up in the
response.
-/

set_option autoImplicit false

namespace H3llo.Api
open H3llo.Config
open H3llo.H3 (stripPrefix stripPrefix_eq_some)

/-- Methods other than these are not told apart. -/
inductive Method where
  | get | post | delete | other
  deriving DecidableEq, Repr

structure HttpResponse where
  status : Nat
  contentType : Option String
  body : String
  deriving DecidableEq, Repr

structure HttpRequest where
  method : Method
  path : String
  /-- What reading the body gives, up to its largest size. -/
  body : Except String (List UInt8)

structure Codec where
  postPayload : List UInt8 → Except String (List Peer)
  deletePayload : List UInt8 → Except String (List String)
  configYaml : HashMap String Peer → Except String String
  metricsText : String

def response (status : Nat) (body : String) : HttpResponse := ⟨status, none, body⟩

/-! ## Paths -/

def trimEndSlashes (text : String) : String :=
  String.ofList (text.toList.reverse.dropWhile (· = '/')).reverse

/-- The path below the base path; `none` for a path outside of it. -/
def relativePath (apiPath path : String) : Option String :=
  let base := trimEndSlashes apiPath
  if base = "" then some path
  else
    match stripPrefix base path with
    | none => none
    | some rest =>
        if rest = "" then some "/"
        else if rest.toList.head? = some '/' then some rest
        else none

inductive Route where
  | getConfig | postConfig | deleteConfig | getMetrics
  deriving DecidableEq, Repr

def Route.of (method : Method) (relative : String) : Option Route :=
  if relative = "/config" ∨ relative = "/config/" then
    match method with
    | .get => some .getConfig
    | .post => some .postConfig
    | .delete => some .deleteConfig
    | .other => none
  else if relative = "/metrics" ∨ relative = "/metrics/" then
    match method with
    | .get => some .getMetrics
    | .post | .delete | .other => none
  else none

/-! ## Requests -/

def withBody {Payload : Type} (body : Except String (List UInt8))
    (parse : List UInt8 → Except String Payload) (operation : Payload → Operation) :
    Except HttpResponse Operation :=
  match body with
  | .error error => .error (response 400 ("body read error: " ++ error))
  | .ok bytes =>
      match parse bytes with
      | .error error => .error (response 400 ("invalid YAML: " ++ error))
      | .ok payload => .ok (operation payload)

def dispatch (codec : Codec) (apiPath : String) (request : HttpRequest) :
    Except HttpResponse Operation :=
  match (relativePath apiPath request.path).bind (Route.of request.method) with
  | none => .error (response 404 "not found")
  | some .getConfig => .ok .getConfig
  | some .postConfig => withBody request.body codec.postPayload .postConfig
  | some .deleteConfig => withBody request.body codec.deletePayload .deleteConfig
  | some .getMetrics => .ok .getMetrics

inductive CallError where
  | unavailable | droppedReply
  deriving DecidableEq, Repr

def yamlConfigResponse (codec : Codec) (configs : HashMap String Peer) : HttpResponse :=
  match codec.configYaml configs with
  | .ok yaml => ⟨200, some "application/yaml", yaml⟩
  | .error error => response 500 ("serialization error: " ++ error)

def respond (codec : Codec) : Except CallError Reply → HttpResponse
  | .error .unavailable => response 500 "orchestrator unavailable"
  | .error .droppedReply => response 500 "orchestrator dropped reply"
  | .ok (.config configs) => yamlConfigResponse codec configs
  | .ok (.invalid text) => response 400 text
  | .ok .metrics =>
      ⟨200, some "application/openmetrics-text; version=1.0.0; charset=utf-8", codec.metricsText⟩

def handleRequest (codec : Codec) (apiPath : String) (request : HttpRequest)
    (outcome : Operation → Except CallError Reply) : HttpResponse :=
  match dispatch codec apiPath request with
  | .error refusal => refusal
  | .ok operation => respond codec (outcome operation)

/-! ## Which requests are served -/

theorem relativePath_eq_some {apiPath path relative : String}
    (rooted : relative.toList.head? = some '/') (proper : relative ≠ "/") :
    relativePath apiPath path = some relative ↔ path = trimEndSlashes apiPath ++ relative := by
  unfold relativePath
  simp only
  split
  next empty =>
    rw [empty, Option.some.injEq, ← String.toList_inj, ← String.toList_inj]
    simp
  next =>
    have nonempty : relative ≠ "" := by
      rintro rfl
      cases rooted
    rw [← stripPrefix_eq_some]
    cases stripPrefix (trimEndSlashes apiPath) path with
    | none => simp
    | some rest =>
      simp only [Option.some.injEq]
      by_cases empty : rest = ""
      · simp [empty, Ne.symm proper, Ne.symm nonempty]
      · simp only [empty, if_false]
        split
        next => simp
        next unrooted =>
          constructor
          · nofun
          · rintro rfl
            exact absurd rooted unrooted

namespace Route

def method : Route → Method
  | .getConfig | .getMetrics => .get
  | .postConfig => .post
  | .deleteConfig => .delete

def path : Route → String
  | .getConfig | .postConfig | .deleteConfig => "/config"
  | .getMetrics => "/metrics"

theorem of_eq_some {method : Method} {relative : String} {route : Route} :
    Route.of method relative = some route ↔
      method = route.method ∧ (relative = route.path ∨ relative = route.path ++ "/") := by
  have config : "/config" ++ "/" = "/config/" := by decide
  have metrics : "/metrics" ++ "/" = "/metrics/" := by decide
  unfold Route.of
  split
  next isConfig =>
    have notMetrics : ¬ (relative = "/metrics" ∨ relative = "/metrics/") := by
      rcases isConfig with rfl | rfl <;> decide
    cases method <;> cases route <;> simp [Route.method, Route.path, config, metrics, isConfig,
      notMetrics]
  next notConfig =>
    split
    next isMetrics =>
      cases method <;> cases route <;> simp [Route.method, Route.path, config, metrics, notConfig,
        isMetrics]
    next notMetrics =>
      cases route <;> simp [Route.method, Route.path, config, metrics, notConfig, notMetrics]

end Route

/-- The request is for this route, with or without a slash at its end. -/
def Matches (apiPath : String) (request : HttpRequest) (route : Route) : Prop :=
  request.method = route.method ∧
    (request.path = trimEndSlashes apiPath ++ route.path ∨
      request.path = trimEndSlashes apiPath ++ (route.path ++ "/"))

theorem routed_iff {apiPath : String} {request : HttpRequest} {route : Route} :
    (relativePath apiPath request.path).bind (Route.of request.method) = some route ↔
    Matches apiPath request route := by
  have plain : relativePath apiPath request.path = some route.path ↔
      request.path = trimEndSlashes apiPath ++ route.path :=
    relativePath_eq_some (by cases route <;> decide) (by cases route <;> decide)
  have slashed : relativePath apiPath request.path = some (route.path ++ "/") ↔
      request.path = trimEndSlashes apiPath ++ (route.path ++ "/") :=
    relativePath_eq_some (by cases route <;> decide) (by cases route <;> decide)
  rw [Option.bind_eq_some_iff, Matches, ← plain, ← slashed]
  constructor
  · rintro ⟨relative, found, served⟩
    obtain ⟨method, rfl | rfl⟩ := Route.of_eq_some.mp served
    · exact ⟨method, .inl found⟩
    · exact ⟨method, .inr found⟩
  · rintro ⟨method, found | found⟩
    · exact ⟨_, found, Route.of_eq_some.mpr ⟨method, .inl rfl⟩⟩
    · exact ⟨_, found, Route.of_eq_some.mpr ⟨method, .inr rfl⟩⟩

def Carries (codec : Codec) (body : Except String (List UInt8))
    (operation : Operation) : Route → Prop
  | .getConfig => operation = .getConfig
  | .getMetrics => operation = .getMetrics
  | .postConfig =>
      ∃ bytes peers, body = .ok bytes ∧ codec.postPayload bytes = .ok peers ∧
        operation = .postConfig peers
  | .deleteConfig =>
      ∃ bytes peerIds, body = .ok bytes ∧ codec.deletePayload bytes = .ok peerIds ∧
        operation = .deleteConfig peerIds

theorem withBody_eq_ok {Payload : Type} {body : Except String (List UInt8)}
    {parse : List UInt8 → Except String Payload} {make : Payload → Operation}
    {operation : Operation} :
    withBody body parse make = .ok operation ↔
      ∃ bytes payload, body = .ok bytes ∧ parse bytes = .ok payload ∧ operation = make payload := by
  unfold withBody
  cases body with
  | error error => simp
  | ok bytes =>
    cases parsed : parse bytes with
    | error error => simp [parsed]
    | ok payload => simp [parsed, eq_comm]

theorem status_withBody {Payload : Type} {body : Except String (List UInt8)}
    {parse : List UInt8 → Except String Payload} {make : Payload → Operation}
    {refusal : HttpResponse} (refused : withBody body parse make = .error refusal) :
    refusal.status = 400 := by
  unfold withBody at refused
  cases body with
  | error error =>
    cases refused
    rfl
  | ok bytes =>
    cases parsed : parse bytes with
    | error error =>
      simp only [parsed] at refused
      cases refused
      rfl
    | ok payload => simp [parsed] at refused

theorem trimEndSlashes_spec (text : String) :
    (∃ count, text.toList = (trimEndSlashes text).toList ++ List.replicate count '/') ∧
      (trimEndSlashes text).toList.getLast? ≠ some '/' := by
  have whole := List.takeWhile_append_dropWhile (p := fun char : Char => decide (char = '/'))
    (l := text.toList.reverse)
  have slashes : text.toList.reverse.takeWhile (fun char => decide (char = '/')) =
      List.replicate (text.toList.reverse.takeWhile (fun char => decide (char = '/'))).length
        '/' := by
    rw [List.eq_replicate_iff]
    refine ⟨rfl, fun char member => ?_⟩
    simpa using List.mem_takeWhile_imp member
  constructor
  · refine ⟨(text.toList.reverse.takeWhile (fun char => decide (char = '/'))).length, ?_⟩
    rw [trimEndSlashes, String.toList_ofList, ← List.reverse_replicate, ← slashes,
      ← List.reverse_append, whole,
      List.reverse_reverse]
  · rw [trimEndSlashes, String.toList_ofList, List.getLast?_reverse]
    intro head
    have kept := List.head?_dropWhile_not (fun char => decide (char = '/')) text.toList.reverse
    rw [head] at kept
    simp at kept

theorem dispatch_spec (codec : Codec) (apiPath : String) (request : HttpRequest) :
    (∀ operation, dispatch codec apiPath request = .ok operation ↔
      ∃ route, Matches apiPath request route ∧ Carries codec request.body operation route) ∧
    (∀ refusal, dispatch codec apiPath request = .error refusal →
      (∀ route, ¬ Matches apiPath request route) ∧ refusal = response 404 "not found" ∨
        (∃ route, Matches apiPath request route) ∧ refusal.status = 400) := by
  unfold dispatch
  cases routed : (relativePath apiPath request.path).bind (Route.of request.method) with
  | none =>
    have unmatched (route : Route) : ¬ Matches apiPath request route := by
      rw [← routed_iff, routed]
      simp
    refine ⟨fun operation => ⟨?_, ?_⟩, fun refusal refused => ?_⟩
    · intro made
      cases made
    · rintro ⟨route, isMatch, -⟩
      exact absurd isMatch (unmatched route)
    · cases refused
      exact .inl ⟨unmatched, rfl⟩
  | some route =>
    have isMatch := routed_iff.mp routed
    -- A request matches one route at most, so that the operation is the one of that route.
    have only (other : Route) (also : Matches apiPath request other) : other = route := by
      rw [← routed_iff, routed] at also
      exact (Option.some.inj also).symm
    have carried (operation : Operation) : (∃ other, Matches apiPath request other ∧
        Carries codec request.body operation other) ↔
        Carries codec request.body operation route := by
      constructor
      · rintro ⟨other, also, carries⟩
        exact only other also ▸ carries
      · exact fun carries => ⟨route, isMatch, carries⟩
    cases route with
    | getConfig =>
      refine ⟨fun operation => ?_, fun refusal refused => ?_⟩
      · rw [carried]
        simp [Carries, eq_comm]
      · cases refused
    | getMetrics =>
      refine ⟨fun operation => ?_, fun refusal refused => ?_⟩
      · rw [carried]
        simp [Carries, eq_comm]
      · cases refused
    | postConfig =>
      refine ⟨fun operation => ?_, fun refusal refused =>
        .inr ⟨⟨_, isMatch⟩, status_withBody refused⟩⟩
      rw [carried]
      exact withBody_eq_ok
    | deleteConfig =>
      refine ⟨fun operation => ?_, fun refusal refused =>
        .inr ⟨⟨_, isMatch⟩, status_withBody refused⟩⟩
      rw [carried]
      exact withBody_eq_ok

/-- What a response tells of the outcome of a call. -/
def Conveys (codec : Codec) (answer : HttpResponse) : Except CallError Reply → Prop
  | .error _ => answer.status = 500
  | .ok (.invalid text) => answer.status = 400 ∧ answer.body = text
  | .ok (.config configs) =>
      (∀ yaml, codec.configYaml configs = .ok yaml → answer.status = 200 ∧ answer.body = yaml) ∧
        ∀ error, codec.configYaml configs = .error error → answer.status = 500
  | .ok .metrics => answer.status = 200 ∧ answer.body = codec.metricsText

theorem conveys_respond (codec : Codec) (outcome : Except CallError Reply) :
    Conveys codec (respond codec outcome) outcome := by
  cases outcome with
  | error error => cases error <;> rfl
  | ok reply =>
    cases reply with
    | invalid text => exact ⟨rfl, rfl⟩
    | metrics => exact ⟨rfl, rfl⟩
    | config configs =>
      constructor
      · intro yaml encoded
        simp [respond, yamlConfigResponse, encoded]
      · intro error failed
        simp [respond, yamlConfigResponse, response, failed]

/-- Below the base path without its last slashes, a request makes a call if and only if it matches a
route and carries its payload, and its response tells the outcome of the call; it is not found if it
matches none, and a bad request otherwise. -/
theorem http_requests (codec : Codec) (apiPath : String) (request : HttpRequest) :
    ((∃ count, apiPath.toList = (trimEndSlashes apiPath).toList ++ List.replicate count '/') ∧
      (trimEndSlashes apiPath).toList.getLast? ≠ some '/') ∧
    (∀ operation, dispatch codec apiPath request = .ok operation ↔
      ∃ route, Matches apiPath request route ∧ Carries codec request.body operation route) ∧
    (∀ refusal, dispatch codec apiPath request = .error refusal →
      (∀ route, ¬ Matches apiPath request route) ∧ refusal = response 404 "not found" ∨
        (∃ route, Matches apiPath request route) ∧ refusal.status = 400) ∧
    ∀ outcome : Operation → Except CallError Reply,
      (∀ operation route, Matches apiPath request route →
        Carries codec request.body operation route →
        Conveys codec (handleRequest codec apiPath request outcome) (outcome operation)) ∧
      ((∀ route, ¬ Matches apiPath request route) →
        handleRequest codec apiPath request outcome = response 404 "not found") ∧
      ((∃ route, Matches apiPath request route ∧ ∀ operation,
        ¬ Carries codec request.body operation route) →
        (handleRequest codec apiPath request outcome).status = 400) := by
  obtain ⟨made, refused⟩ := dispatch_spec codec apiPath request
  refine ⟨trimEndSlashes_spec apiPath, made, refused, fun outcome => ?_⟩
  unfold handleRequest
  cases dispatched : dispatch codec apiPath request with
  | ok operation =>
    obtain ⟨route, isMatch, carries⟩ := (made operation).mp dispatched
    refine ⟨fun other also otherMatch otherCarries => ?_, fun none =>
      absurd isMatch (none route), ?_⟩
    · have same := (made other).mpr ⟨also, otherMatch, otherCarries⟩
      cases dispatched.symm.trans same
      exact conveys_respond codec (outcome operation)
    · rintro ⟨other, otherMatch, empty⟩
      cases (routed_iff.mpr isMatch).symm.trans (routed_iff.mpr otherMatch)
      exact absurd carries (empty operation)
  | error refusal =>
    have unmade (operation : Operation) (route : Route) (isMatch : Matches apiPath request route) :
        ¬ Carries codec request.body operation route := fun carries => by
      have also := (made operation).mpr ⟨route, isMatch, carries⟩
      rw [dispatched] at also
      cases also
    rcases refused refusal dispatched with ⟨unmatched, rfl⟩ | ⟨⟨route, isMatch⟩, status⟩
    · exact ⟨fun operation route isMatch => absurd isMatch (unmatched route), fun _ => rfl,
        fun ⟨route, isMatch, _⟩ => absurd isMatch (unmatched route)⟩
    · exact ⟨fun operation other also carries => absurd carries (unmade operation other also),
        fun unmatched => absurd isMatch (unmatched route), fun _ => status⟩

end H3llo.Api
