import NatsCpp.Errors
import NatsCpp.ConnectionModel
import NatsCpp.PayloadLength

/-!
# Connection options

`connection_options` and its translation into calls of the `natsOptions_*`
setters. Each conditional call of `apply_nats_options` is an entry of a list, in
the order of the source, that is there if its options are engaged; in a build
without TLS two of the entries throw instead.
-/
namespace NatsCpp.Connect
open Connection (Kind)

/-- The setters of a `natsOptions` object with their arguments. Pointers to
texts stand for what nats.c can read there; a null pointer is `none`. -/
inductive Setting where
  | setServers (servers : List String) (serversCount : Int32)
  | setURL (url : String)
  | setToken (token : String)
  | setTokenHandler (tokenCb : ℕ) (closure : Option ℕ)
  | setNKey (pubKey : String) (sigCB : Option ℕ) (closure : Option ℕ)
  | setUserCredentialsFromFiles (userOrChainedFile : String) (seedFile : Option String)
  | setUserInfo (user password : String)
  | setSecure (secure : Bool)
  | loadCATrustedCertificates (fileName : String)
  | loadCATrustedCertificatesPath (path : String)
  | loadCertificatesChain (certsFile keyFile : String)
  | skipServerVerification (skip : Bool)
  | setExpectedHostname (hostname : String)
  | setCiphers (ciphers : String)
  | setCipherSuites (suites : String)
  | setCallback (kind : Kind) (closure : ℕ)
  | setReconnectWait (wait : Int64)
  | setMaxReconnect (max : Int32)
  | setAllowReconnect (allow : Bool)
  | setNoRandomize (noRandomize : Bool)
  | setMaxPingsOut (max : Int32)
  | setReconnectBufSize (size : Int32)
  | setReconnectJitter (jitter jitterTLS : Int64)
  | setMaxPendingMsgs (max : Int32)
  | setMaxPendingBytes (max : Int64)
  | setIOBufSize (size : Int32)
  | setSendAsap (asap : Bool)
  | setFailRequestsOnDisconnect (fail : Bool)
  | setIgnoreDiscoveredServers (ignored : Bool)
  | disableNoResponders (disabled : Bool)
  | useOldRequestStyle (old : Bool)
  | setCustomInboxPrefix (inboxPrefix : String)
  | setPedantic (pedantic : Bool)
  | setVerbose (verbose : Bool)
  | setPingInterval (interval : Int64)
  | setTimeout (timeout : Int64)
  | setName (name : String)
  | setNoEcho (noEcho : Bool)
  | setRetryOnFailedConnect (retry : Bool)
  deriving DecidableEq

/-- The name of the setter, which is the context of its errors. -/
def Setting.context : Setting → String
  | .setServers .. => "natsOptions_SetServers"
  | .setURL .. => "natsOptions_SetURL"
  | .setToken .. => "natsOptions_SetToken"
  | .setTokenHandler .. => "natsOptions_SetTokenHandler"
  | .setNKey .. => "natsOptions_SetNKey"
  | .setUserCredentialsFromFiles .. => "natsOptions_SetUserCredentialsFromFiles"
  | .setUserInfo .. => "natsOptions_SetUserInfo"
  | .setSecure .. => "natsOptions_SetSecure"
  | .loadCATrustedCertificates .. => "natsOptions_LoadCATrustedCertificates"
  | .loadCATrustedCertificatesPath .. => "natsOptions_LoadCATrustedCertificatesPath"
  | .loadCertificatesChain .. => "natsOptions_LoadCertificatesChain"
  | .skipServerVerification .. => "natsOptions_SkipServerVerification"
  | .setExpectedHostname .. => "natsOptions_SetExpectedHostname"
  | .setCiphers .. => "natsOptions_SetCiphers"
  | .setCipherSuites .. => "natsOptions_SetCipherSuites"
  | .setCallback .closed _ => "natsOptions_SetClosedCB"
  | .setCallback .disconnected _ => "natsOptions_SetDisconnectedCB"
  | .setCallback .reconnected _ => "natsOptions_SetReconnectedCB"
  | .setCallback .error _ => "natsOptions_SetErrorHandler"
  | .setCallback .lameDuckMode _ => "natsOptions_SetLameDuckModeCB"
  | .setCallback .discoveredServers _ => "natsOptions_SetDiscoveredServersCB"
  | .setReconnectWait .. => "natsOptions_SetReconnectWait"
  | .setMaxReconnect .. => "natsOptions_SetMaxReconnect"
  | .setAllowReconnect .. => "natsOptions_SetAllowReconnect"
  | .setNoRandomize .. => "natsOptions_SetNoRandomize"
  | .setMaxPingsOut .. => "natsOptions_SetMaxPingsOut"
  | .setReconnectBufSize .. => "natsOptions_SetReconnectBufSize"
  | .setReconnectJitter .. => "natsOptions_SetReconnectJitter"
  | .setMaxPendingMsgs .. => "natsOptions_SetMaxPendingMsgs"
  | .setMaxPendingBytes .. => "natsOptions_SetMaxPendingBytes"
  | .setIOBufSize .. => "natsOptions_SetIOBufSize"
  | .setSendAsap .. => "natsOptions_SetSendAsap"
  | .setFailRequestsOnDisconnect .. => "natsOptions_SetFailRequestsOnDisconnect"
  | .setIgnoreDiscoveredServers .. => "natsOptions_SetIgnoreDiscoveredServers"
  | .disableNoResponders .. => "natsOptions_DisableNoResponders"
  | .useOldRequestStyle .. => "natsOptions_UseOldRequestStyle"
  | .setCustomInboxPrefix .. => "natsOptions_SetCustomInboxPrefix"
  | .setPedantic .. => "natsOptions_SetPedantic"
  | .setVerbose .. => "natsOptions_SetVerbose"
  | .setPingInterval .. => "natsOptions_SetPingInterval"
  | .setTimeout .. => "natsOptions_SetTimeout"
  | .setName .. => "natsOptions_SetName"
  | .setNoEcho .. => "natsOptions_SetNoEcho"
  | .setRetryOnFailedConnect .. => "natsOptions_SetRetryOnFailedConnect"

/-- A `callback_handlers` object; functions are named by numbers, and an empty
`std::function` is `none`. -/
structure CallbackHandlers where
  closedCb : Option ℕ
  disconnectedCb : Option ℕ
  reconnectedCb : Option ℕ
  errorHandler : Option ℕ
  lameDuckModeCb : Option ℕ
  discoveredServersCb : Option ℕ
  deriving DecidableEq

/-- The engaged functions of a `callback_handlers` object. -/
def CallbackHandlers.callback (c : CallbackHandlers) : Kind → Option ℕ
  | .closed => c.closedCb
  | .disconnected => c.disconnectedCb
  | .reconnected => c.reconnectedCb
  | .error => c.errorHandler
  | .lameDuckMode => c.lameDuckModeCb
  | .discoveredServers => c.discoveredServersCb

/-- `connection_options` with the defaults of its fields; durations are in milliseconds. -/
structure ConnectionOptions where
  url : String := "nats://127.0.0.1:4222"
  urls : List String := []
  retryOnFailedConnect : Bool := false
  token : Option String := none
  user : Option String := none
  password : Option String := none
  userCredentialsFile : Option String := none
  userNkeySeedFile : Option String := none
  nkeyPublic : Option String := none
  nkeySignatureCb : Option ℕ := none
  nkeySignatureClosure : Option ℕ := none
  tokenHandlerCb : Option ℕ := none
  tokenHandlerClosure : Option ℕ := none
  secure : Option Bool := none
  caTrustedCertificatesFile : Option String := none
  caCertsPath : Option String := none
  certificatesChainFile : Option String := none
  privateKeyFile : Option String := none
  skipServerVerification : Option Bool := none
  expectedHostname : Option String := none
  ciphers : Option String := none
  cipherSuites : Option String := none
  closedCb : Option ℕ := none
  disconnectedCb : Option ℕ := none
  reconnectedCb : Option ℕ := none
  errorHandler : Option ℕ := none
  lameDuckModeCb : Option ℕ := none
  discoveredServersCb : Option ℕ := none
  reconnectWait : Option Int64 := none
  maxReconnect : Option Int32 := none
  allowReconnect : Option Bool := none
  noRandomize : Option Bool := none
  maxPingsOut : Option Int32 := none
  reconnectBufSize : Option Int32 := none
  reconnectJitter : Option (Int64 × Int64) := none
  maxPendingMsgs : Option Int32 := none
  maxPendingBytes : Option Int64 := none
  ioBufSize : Option Int32 := none
  sendAsap : Option Bool := none
  failRequestsOnDisconnect : Option Bool := none
  ignoreDiscoveredServers : Option Bool := none
  disableNoResponders : Option Bool := none
  useOldRequestStyle : Option Bool := none
  customInboxPrefix : Option String := none
  pedantic : Option Bool := none
  verbose : Option Bool := none
  pingInterval : Option Int64 := none
  timeout : Option Int64 := none
  name : Option String := none
  noEcho : Option Bool := none

/-- The value of a `std::string` parameter with the default argument `{}`. -/
def omittedFile : String := ""

namespace ConnectionOptions

def setUserCredentialsFromFiles (o : ConnectionOptions) (userCredentialsFile seedFile : String) :
    ConnectionOptions :=
  { o with userCredentialsFile := some userCredentialsFile, userNkeySeedFile := some seedFile }

/-- The handlers that `connect` copies. -/
def handlers (o : ConnectionOptions) : CallbackHandlers where
  closedCb := o.closedCb
  disconnectedCb := o.disconnectedCb
  reconnectedCb := o.reconnectedCb
  errorHandler := o.errorHandler
  lameDuckModeCb := o.lameDuckModeCb
  discoveredServersCb := o.discoveredServersCb

/-- `static_cast<int>(server_ptrs.size())`. -/
def serversCount (o : ConnectionOptions) : Int32 := toInt (UInt64.ofNat o.urls.length)

/-- The texts that can be read through `server_ptrs.data()`, as many as are counted. -/
def servers (o : ConnectionOptions) : List String :=
  (o.urls.take o.serversCount.toInt.toNat).map cText

/-- Without the options that are read only together with another one that has no value. -/
def withoutLoneHalves (o : ConnectionOptions) : ConnectionOptions :=
  { o with
    userNkeySeedFile := o.userCredentialsFile.bind fun _ => o.userNkeySeedFile
    user := o.password.bind fun _ => o.user
    password := o.user.bind fun _ => o.password
    certificatesChainFile := o.privateKeyFile.bind fun _ => o.certificatesChainFile
    privateKeyFile := o.certificatesChainFile.bind fun _ => o.privateKeyFile }

end ConnectionOptions

/-- An entry for each engaged option: a call of a setter, or the exception that
is thrown in its place. -/
abbrev Script := List (Except Error Setting)

/-- `if (options.x) throw_on_error(natsOptions_SetX(nopts, *options.x), …)`. -/
def engage {α : Type} (field : Option α) (set : α → Setting) : Script :=
  (field.map fun v => .ok (set v)).toList

/-- The same for a text, which is passed as `options.x->c_str()`. -/
def engageText (field : Option String) (set : String → Setting) : Script :=
  engage field fun text => set (cText text)

/-- The same for two texts that are used together. -/
def engageBoth (field other : Option String) (set : String → String → Setting) : Script :=
  match field, other with
  | some v, some w => [.ok (set (cText v) (cText w))]
  | _, _ => []

/-- The same for a text that is there only if `NATS_HAS_TLS` is defined. -/
def engageTls (tls : Bool) (field : Option String) (set : String → Setting) : Script :=
  (field.map fun text =>
    if tls then .ok (set (cText text))
    else .error (.natsError .illegalState
      ((set (cText text)).context ++ ": TLS not compiled in"))).toList

section Script

variable (tls : Bool) (o : ConnectionOptions) (handlers : ℕ)

def urlScript : Script :=
  if o.urls ≠ [] then [.ok (.setServers o.servers o.serversCount)]
  else [.ok (.setURL (cText o.url))]

def tokenScript : Script :=
  engageText o.token .setToken ++
  engage o.tokenHandlerCb (.setTokenHandler · o.tokenHandlerClosure) ++
  engageText o.nkeyPublic (.setNKey · o.nkeySignatureCb o.nkeySignatureClosure)

def credentialsScript : Script :=
  engageText o.userCredentialsFile
    (.setUserCredentialsFromFiles · (o.userNkeySeedFile.map cText))

def userScript : Script :=
  engageBoth o.user o.password .setUserInfo

def tlsScript : Script :=
  engage o.secure .setSecure ++
  engageText o.caTrustedCertificatesFile .loadCATrustedCertificates ++
  engageTls tls o.caCertsPath .loadCATrustedCertificatesPath ++
  engageBoth o.certificatesChainFile o.privateKeyFile .loadCertificatesChain ++
  engage o.skipServerVerification .skipServerVerification ++
  engageText o.expectedHostname .setExpectedHostname ++
  engageText o.ciphers .setCiphers ++
  engageTls tls o.cipherSuites .setCipherSuites

def callbackScript : Script :=
  engage o.closedCb (fun _ => .setCallback .closed handlers) ++
  engage o.disconnectedCb (fun _ => .setCallback .disconnected handlers) ++
  engage o.reconnectedCb (fun _ => .setCallback .reconnected handlers) ++
  engage o.errorHandler (fun _ => .setCallback .error handlers) ++
  engage o.lameDuckModeCb (fun _ => .setCallback .lameDuckMode handlers) ++
  engage o.discoveredServersCb (fun _ => .setCallback .discoveredServers handlers)

/-- Reconnect behaviour and subscription back-pressure. -/
def reconnectScript : Script :=
  engage o.reconnectWait .setReconnectWait ++
  engage o.maxReconnect .setMaxReconnect ++
  engage o.allowReconnect .setAllowReconnect ++
  engage o.noRandomize .setNoRandomize ++
  engage o.maxPingsOut .setMaxPingsOut ++
  engage o.reconnectBufSize .setReconnectBufSize ++
  engage o.reconnectJitter (fun jitter => .setReconnectJitter jitter.1 jitter.2) ++
  engage o.maxPendingMsgs .setMaxPendingMsgs ++
  engage o.maxPendingBytes .setMaxPendingBytes

/-- I/O tuning, cluster discovery, protocol and connection tuning. -/
def tuningScript : Script :=
  engage o.ioBufSize .setIOBufSize ++
  engage o.sendAsap .setSendAsap ++
  engage o.failRequestsOnDisconnect .setFailRequestsOnDisconnect ++
  engage o.ignoreDiscoveredServers .setIgnoreDiscoveredServers ++
  engage o.disableNoResponders .disableNoResponders ++
  engage o.useOldRequestStyle .useOldRequestStyle ++
  engageText o.customInboxPrefix .setCustomInboxPrefix ++
  engage o.pedantic .setPedantic ++
  engage o.verbose .setVerbose ++
  engage o.pingInterval .setPingInterval ++
  engage o.timeout .setTimeout ++
  engageText o.name .setName ++
  engage o.noEcho .setNoEcho

/-- What `apply_nats_options` does before it comes to the credentials files. -/
def scriptBefore : Script := urlScript o ++ tokenScript o

/-- What it does after them. -/
def scriptAfter : Script :=
  userScript o ++ tlsScript tls o ++ callbackScript o handlers ++ reconnectScript o ++ tuningScript o

def script : Script :=
  scriptBefore o ++ (credentialsScript o ++ scriptAfter tls o handlers)

theorem engageBoth_bind (field other : Option String) (set : String → String → Setting) :
    engageBoth (other.bind fun _ => field) (field.bind fun _ => other) set =
      engageBoth field other set := by
  cases field <;> cases other <;> rfl

/-- Half of a pair alone is in no call. -/
theorem script_withoutLoneHalves :
    script tls o.withoutLoneHalves handlers = script tls o handlers := by
  have hcredentials : credentialsScript o.withoutLoneHalves = credentialsScript o := by
    unfold credentialsScript ConnectionOptions.withoutLoneHalves
    cases o.userCredentialsFile <;> rfl
  have huser : userScript o.withoutLoneHalves = userScript o := engageBoth_bind ..
  have htls : tlsScript tls o.withoutLoneHalves = tlsScript tls o := by
    simp only [tlsScript, ConnectionOptions.withoutLoneHalves, engageBoth_bind]
  simp only [script, scriptAfter, hcredentials, huser, htls]
  rfl

end Script

/-- The native calls of `connect`. -/
inductive Call where
  | optionsCreate
  | set (nopts : ℕ) (x : Setting)
  | connect (nopts : ℕ)
  | optionsDestroy (nopts : ℕ)
  | connectionDestroy (n : ℕ)
  deriving DecidableEq

/-- What nats.c answers to the last of the calls made. -/
structure Nats where
  texts : ErrorTexts Call
  status : List Call → Status
  options : List Call → ℕ

section Programs

variable (nats : Nats) (nopts : ℕ)

def natsOptionsCreate : Program Call Error ℕ := do
  let calls ← Program.call .optionsCreate
  throwOnError nats.texts (nats.status calls) "natsOptions_Create"
  pure (nats.options calls)

def setOption (x : Setting) : Program Call Error Unit := do
  let calls ← Program.call (.set nopts x)
  throwOnError nats.texts (nats.status calls) x.context

def natsConnectionConnect : Program Call Error Unit := do
  let calls ← Program.call (.connect nopts)
  throwOnError nats.texts (nats.status calls) "natsConnection_Connect"

def perform (x : Except Error Setting) : Program Call Error Unit :=
  match x with
  | .ok x => setOption nats nopts x
  | .error e => throw e

def applyScript : Script → Program Call Error Unit
  | [] => pure ()
  | x :: xs => do
    perform nats nopts x
    applyScript xs

def applyNatsOptions (tls : Bool) (o : ConnectionOptions) (handlers : ℕ) :
    Program Call Error Unit :=
  applyScript nats nopts (script tls o handlers)

end Programs

/-- nats.c answers with `NATS_OK` to each of some calls, made one after the other. -/
def Nats.Accepts (nats : Nats) : List Call → List Call → Prop
  | _, [] => True
  | made, c :: cs => nats.status (made ++ [c]) = .ok ∧ nats.Accepts (made ++ [c]) cs

section Membership

variable {x : Setting} {field other : Option String}

@[simp] theorem ok_mem_engage {α : Type} {field : Option α} {set : α → Setting} :
    .ok x ∈ engage field set ↔ ∃ v, field = some v ∧ x = set v := by
  cases field <;> simp [engage]

@[simp] theorem ok_mem_engageText {set : String → Setting} :
    .ok x ∈ engageText field set ↔ ∃ v, field.map cText = some v ∧ x = set v := by
  cases field <;> simp [engageText, engage]

@[simp] theorem ok_mem_engageBoth {set : String → String → Setting} :
    .ok x ∈ engageBoth field other set ↔
      ∃ v w, field.map cText = some v ∧ other.map cText = some w ∧ x = set v w := by
  cases field <;> cases other <;> simp [engageBoth]

@[simp] theorem ok_mem_engageTls {tls : Bool} {set : String → Setting} :
    .ok x ∈ engageTls tls field set ↔
      tls = true ∧ ∃ v, field.map cText = some v ∧ x = set v := by
  cases field <;> cases tls <;> simp [engageTls]

@[simp] theorem ok_mem_urlScript {o : ConnectionOptions} : .ok x ∈ urlScript o ↔
    if o.urls ≠ [] then x = .setServers o.servers o.serversCount else x = .setURL (cText o.url) := by
  unfold urlScript
  split <;> simp

/-- The options that a setter gets its arguments from. -/
def Setting.From (tls : Bool) (o : ConnectionOptions) (handlers : ℕ) : Setting → Prop
  | .setServers servers count =>
    o.urls ≠ [] ∧ servers = o.servers ∧ count = o.serversCount
  | .setURL url => o.urls = [] ∧ url = cText o.url
  | .setToken v => o.token.map cText = some v
  | .setTokenHandler v closure => o.tokenHandlerCb = some v ∧ closure = o.tokenHandlerClosure
  | .setNKey v cb closure =>
    o.nkeyPublic.map cText = some v ∧ cb = o.nkeySignatureCb ∧ closure = o.nkeySignatureClosure
  | .setUserCredentialsFromFiles v seed =>
    o.userCredentialsFile.map cText = some v ∧ seed = o.userNkeySeedFile.map cText
  | .setUserInfo v w => o.user.map cText = some v ∧ o.password.map cText = some w
  | .setSecure v => o.secure = some v
  | .loadCATrustedCertificates v => o.caTrustedCertificatesFile.map cText = some v
  | .loadCATrustedCertificatesPath v => tls = true ∧ o.caCertsPath.map cText = some v
  | .loadCertificatesChain v w =>
    o.certificatesChainFile.map cText = some v ∧ o.privateKeyFile.map cText = some w
  | .skipServerVerification v => o.skipServerVerification = some v
  | .setExpectedHostname v => o.expectedHostname.map cText = some v
  | .setCiphers v => o.ciphers.map cText = some v
  | .setCipherSuites v => tls = true ∧ o.cipherSuites.map cText = some v
  | .setCallback kind closure => (o.handlers.callback kind).isSome ∧ closure = handlers
  | .setReconnectWait v => o.reconnectWait = some v
  | .setMaxReconnect v => o.maxReconnect = some v
  | .setAllowReconnect v => o.allowReconnect = some v
  | .setNoRandomize v => o.noRandomize = some v
  | .setMaxPingsOut v => o.maxPingsOut = some v
  | .setReconnectBufSize v => o.reconnectBufSize = some v
  | .setReconnectJitter v w => o.reconnectJitter = some (v, w)
  | .setMaxPendingMsgs v => o.maxPendingMsgs = some v
  | .setMaxPendingBytes v => o.maxPendingBytes = some v
  | .setIOBufSize v => o.ioBufSize = some v
  | .setSendAsap v => o.sendAsap = some v
  | .setFailRequestsOnDisconnect v => o.failRequestsOnDisconnect = some v
  | .setIgnoreDiscoveredServers v => o.ignoreDiscoveredServers = some v
  | .disableNoResponders v => o.disableNoResponders = some v
  | .useOldRequestStyle v => o.useOldRequestStyle = some v
  | .setCustomInboxPrefix v => o.customInboxPrefix.map cText = some v
  | .setPedantic v => o.pedantic = some v
  | .setVerbose v => o.verbose = some v
  | .setPingInterval v => o.pingInterval = some v
  | .setTimeout v => o.timeout = some v
  | .setName v => o.name.map cText = some v
  | .setNoEcho v => o.noEcho = some v
  | .setRetryOnFailedConnect _ => False

/-- The calls that `apply_nats_options` may make are those with the values of the options. -/
theorem ok_mem_script_iff {tls : Bool} {o : ConnectionOptions} {handlers : ℕ} (x : Setting) :
    .ok x ∈ script tls o handlers ↔ x.From tls o handlers := by
  simp only [script, scriptBefore, scriptAfter, tokenScript, credentialsScript, userScript,
    tlsScript, callbackScript, reconnectScript, tuningScript, List.mem_append, ok_mem_urlScript,
    ok_mem_engage, ok_mem_engageText, ok_mem_engageBoth, ok_mem_engageTls]
  cases x with
  | setServers servers count | setURL url =>
    by_cases h : o.urls = [] <;> simp [Setting.From, h]
  | setCallback kind closure =>
    cases kind <;>
      simp [Setting.From, CallbackHandlers.callback, ConnectionOptions.handlers,
        Option.isSome_iff_exists]
  | _ => simp [Setting.From, -Option.map_eq_some_iff]

end Membership

/-- The setters that a script calls up to its first exception. -/
def settings : Script → List Setting
  | [] => []
  | .ok x :: xs => x :: settings xs
  | .error _ :: _ => []

section Settings

variable {x : Setting} {xs : Script}

theorem ok_mem_of_mem_settings (h : x ∈ settings xs) : .ok x ∈ xs := by
  induction xs with
  | nil => simp [settings] at h
  | cons y ys ih =>
    cases y with
    | error e => simp [settings] at h
    | ok y =>
      rcases List.mem_cons.mp h with rfl | h
      · exact List.mem_cons_self
      · exact List.mem_cons_of_mem _ (ih h)

/-- A script without exceptions makes all its calls. -/
theorem mem_settings_iff (h : xs = (settings xs).map .ok) : x ∈ settings xs ↔ .ok x ∈ xs := by
  refine ⟨ok_mem_of_mem_settings, fun hx => ?_⟩
  rw [h, List.mem_map] at hx
  obtain ⟨y, hy, heq⟩ := hx
  exact Except.ok.inj heq ▸ hy

end Settings

section Outcomes

variable (nats : Nats) (nopts : ℕ) (made : List Call)

/-- A call whose status is checked is made, and throws unless it is accepted. -/
theorem outcome_checked (c : Call) (context : String) :
    ∃ r, ((do
      let calls ← Program.call c
      throwOnError nats.texts (nats.status calls) context : Program Call Error Unit).outcome made) =
        (r, made ++ [c]) ∧ (r = .ok () ↔ nats.status (made ++ [c]) = .ok) := by
  rw [Effect.outcome_bind_of_ok _ _ _ (Program.outcome_call c made)]
  by_cases hok : nats.status (made ++ [c]) = .ok
  · rw [hok]
    exact ⟨.ok (), rfl, by simp⟩
  · rw [outcome_throwOnError_of_ne _ _ _ _ hok]
    exact ⟨_, rfl, by simp [hok]⟩

/-- How a script ends: it has made all its calls, each of them accepted, or it
has thrown after some of them. -/
theorem applyScript_cases (xs : Script) :
    (xs = (settings xs).map .ok ∧ nats.Accepts made ((settings xs).map (.set nopts)) ∧
      (applyScript nats nopts xs).outcome made =
        (.ok (), made ++ (settings xs).map (.set nopts))) ∨
    (¬ (xs = (settings xs).map .ok ∧ nats.Accepts made ((settings xs).map (.set nopts))) ∧
      ∃ e done, done <+: settings xs ∧
        (applyScript nats nopts xs).outcome made = (.error e, made ++ done.map (.set nopts))) := by
  induction xs generalizing made with
  | nil => exact .inl ⟨rfl, trivial, by simp [applyScript, settings]⟩
  | cons y ys ih =>
    cases y with
    | error e =>
      refine .inr ⟨by simp [settings], e, [], List.nil_prefix, ?_⟩
      have hthrow : (perform nats nopts (.error e)).outcome made = (.error e, made) := rfl
      rw [applyScript, Effect.outcome_bind_of_error _ _ _ hthrow]
      simp
    | ok x =>
      obtain ⟨r, hr, hok⟩ := outcome_checked nats made (.set nopts x) x.context
      change (perform nats nopts (.ok x)).outcome made = _ at hr
      cases r with
      | error e =>
        refine .inr ⟨?_, e, [x], ⟨settings ys, rfl⟩, ?_⟩
        · rintro ⟨-, haccepts⟩
          simpa using hok.mpr haccepts.1
        · rw [applyScript, Effect.outcome_bind_of_error _ _ _ hr]
          simp
      | ok =>
        have hstatus := hok.mp rfl
        have hbind : (applyScript nats nopts (.ok x :: ys)).outcome made =
            (applyScript nats nopts ys).outcome (made ++ [.set nopts x]) := by
          rw [applyScript, Effect.outcome_bind_of_ok _ _ _ hr]
        rw [hbind]
        rcases ih (made ++ [.set nopts x]) with ⟨hys, haccepts, hout⟩ | ⟨hnot, e, done, hdone, hout⟩
        · refine .inl ⟨?_, ⟨hstatus, haccepts⟩, ?_⟩
          · rw [settings, List.map_cons, ← hys]
          · simp [hout, settings]
        · refine .inr ⟨?_, e, x :: done, List.cons_prefix_cons.mpr ⟨rfl, hdone⟩, ?_⟩
          · rintro ⟨hall, -, haccepts⟩
            rw [settings, List.map_cons, List.cons_inj_right] at hall
            exact hnot ⟨hall, haccepts⟩
          · simp [hout]

theorem applyScript_append (xs ys : Script) : applyScript nats nopts (xs ++ ys) =
    applyScript nats nopts xs >>= fun _ => applyScript nats nopts ys := by
  induction xs with
  | nil => rw [List.nil_append, applyScript, pure_bind]
  | cons x xs ih => rw [List.cons_append, applyScript, applyScript, ih, bind_assoc]

end Outcomes

end NatsCpp.Connect
