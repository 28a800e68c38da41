import NatsCpp.ConnectCall

/-!
# What `connect` sees of its options

Some fields of `connection_options` count only beside others, a text is read up
to its first NUL, and in a build without TLS two options end `apply_nats_options`,
so that nothing after them is read. `effective` forgets exactly what is not read:
two values of the options can be told apart by a call of `connect` if and only if
they differ there.
-/
namespace NatsCpp.Connect
open Connection (Kind)

attribute [ext] ConnectionOptions

/-- The options that need TLS. -/
inductive TlsOption where
  | caCertsPath
  | cipherSuites

def TlsOption.setter : TlsOption → String
  | .caCertsPath => "natsOptions_LoadCATrustedCertificatesPath"
  | .cipherSuites => "natsOptions_SetCipherSuites"

/-- The exception in place of a setter that is not compiled in. -/
def TlsOption.exception (x : TlsOption) : Error :=
  .natsError .illegalState (x.setter ++ ": TLS not compiled in")

theorem TlsOption.exception_injective : Function.Injective TlsOption.exception := by
  intro x y h
  have htext : x.setter ++ ": TLS not compiled in" = y.setter ++ ": TLS not compiled in" :=
    (Error.natsError.inj h).2
  cases x <;> cases y <;> first | rfl | exact absurd htext (by decide)

namespace ConnectionOptions

/-- The texts of the options up to their first NUL; `urls` apart. -/
def cTexts (o : ConnectionOptions) : ConnectionOptions :=
  { o with
    url := cText o.url
    token := o.token.map cText
    user := o.user.map cText
    password := o.password.map cText
    userCredentialsFile := o.userCredentialsFile.map cText
    userNkeySeedFile := o.userNkeySeedFile.map cText
    nkeyPublic := o.nkeyPublic.map cText
    caTrustedCertificatesFile := o.caTrustedCertificatesFile.map cText
    caCertsPath := o.caCertsPath.map cText
    certificatesChainFile := o.certificatesChainFile.map cText
    privateKeyFile := o.privateKeyFile.map cText
    expectedHostname := o.expectedHostname.map cText
    ciphers := o.ciphers.map cText
    cipherSuites := o.cipherSuites.map cText
    customInboxPrefix := o.customInboxPrefix.map cText
    name := o.name.map cText }

/-- The options other than `urls`, without the values that are read only together with others
that are missing. -/
def tidied (o : ConnectionOptions) : ConnectionOptions :=
  let o := o.cTexts.withoutLoneHalves
  { o with
    url := if o.urls = [] then o.url else ""
    urls := []
    tokenHandlerClosure := o.tokenHandlerCb.bind fun _ => o.tokenHandlerClosure
    nkeySignatureCb := o.nkeyPublic.bind fun _ => o.nkeySignatureCb
    nkeySignatureClosure := o.nkeyPublic.bind fun _ => o.nkeySignatureClosure }

theorem tidied_url (o : ConnectionOptions) :
    o.tidied.url = if o.urls = [] then cText o.url else "" :=
  rfl

/-- What is read of `urls` if it is used: texts and their number. -/
def serverList (o : ConnectionOptions) : Option (List String × Int32) :=
  if o.urls = [] then none else some (o.servers, o.serversCount)

/-- The options that are read before `ca_certs_path`. -/
def beforeCertsPath (o : ConnectionOptions) : ConnectionOptions where
  url := o.url
  urls := o.urls
  token := o.token
  user := o.user
  password := o.password
  userCredentialsFile := o.userCredentialsFile
  userNkeySeedFile := o.userNkeySeedFile
  nkeyPublic := o.nkeyPublic
  nkeySignatureCb := o.nkeySignatureCb
  nkeySignatureClosure := o.nkeySignatureClosure
  tokenHandlerCb := o.tokenHandlerCb
  tokenHandlerClosure := o.tokenHandlerClosure
  secure := o.secure
  caTrustedCertificatesFile := o.caTrustedCertificatesFile

/-- The options that are read before `cipher_suites`, if `ca_certs_path` is not engaged. -/
def beforeCipherSuites (o : ConnectionOptions) : ConnectionOptions :=
  { o.beforeCertsPath with
    certificatesChainFile := o.certificatesChainFile
    privateKeyFile := o.privateKeyFile
    skipServerVerification := o.skipServerVerification
    expectedHostname := o.expectedHostname
    ciphers := o.ciphers }

/-- The first option that is engaged but not compiled in. -/
def refused (tls : Bool) (o : ConnectionOptions) : Option TlsOption :=
  if tls then none
  else if o.caCertsPath.isSome then some .caCertsPath
  else if o.cipherSuites.isSome then some .cipherSuites
  else none

/-- The options that are read before the exception of an option that is not compiled in. -/
def reached (tls : Bool) (o : ConnectionOptions) : ConnectionOptions :=
  match o.refused tls with
  | none => o
  | some .caCertsPath => o.beforeCertsPath
  | some .cipherSuites => o.beforeCipherSuites

/-- What is read of the options; the handlers are copied before the setters are called. -/
structure Effective where
  options : ConnectionOptions
  servers : Option (List String × Int32)
  refused : Option TlsOption
  handlers : CallbackHandlers

def effective (tls : Bool) (o : ConnectionOptions) : Effective :=
  ⟨(o.reached tls).tidied, o.serverList, o.refused tls, o.handlers⟩

end ConnectionOptions

section Scripts

variable (tls : Bool) (o : ConnectionOptions) (handlers : ℕ)

section Texts

variable (field other : Option String)

@[simp] theorem engageText_map (set : String → Setting) :
    engageText (field.map cText) set = engageText field set := by
  cases field <;> simp [engageText, engage]

@[simp] theorem engageBoth_map (set : String → String → Setting) :
    engageBoth (field.map cText) (other.map cText) set = engageBoth field other set := by
  cases field <;> cases other <;> simp [engageBoth]

@[simp] theorem engageTls_map (set : String → Setting) :
    engageTls tls (field.map cText) set = engageTls tls field set := by
  cases field <;> simp [engageTls]

end Texts

/-- The script without the call for the servers. -/
def afterUrl : Script := tokenScript o ++ (credentialsScript o ++ scriptAfter tls o handlers)

theorem script_eq_urlScript_append :
    script tls o handlers = urlScript o ++ afterUrl tls o handlers :=
  List.append_assoc ..

/-- It depends only on what `tidied` keeps. -/
theorem afterUrl_tidied : afterUrl tls o.tidied handlers = afterUrl tls o handlers := by
  have htoken : tokenScript o.tidied = tokenScript o := by
    simp only [tokenScript, ConnectionOptions.tidied, ConnectionOptions.cTexts,
      ConnectionOptions.withoutLoneHalves, engageText_map]
    cases o.tokenHandlerCb <;> cases o.nkeyPublic <;> rfl
  have hcredentials : credentialsScript o.tidied = credentialsScript o := by
    simp only [credentialsScript, ConnectionOptions.tidied, ConnectionOptions.cTexts,
      ConnectionOptions.withoutLoneHalves, engageText_map]
    cases o.userCredentialsFile with
    | none => rfl
    | some f => simp [Function.comp_def]
  have huser : userScript o.tidied = userScript o :=
    (engageBoth_bind ..).trans (engageBoth_map ..)
  have htls : tlsScript tls o.tidied = tlsScript tls o := by
    simp only [tlsScript, ConnectionOptions.tidied, ConnectionOptions.cTexts,
      ConnectionOptions.withoutLoneHalves, engageBoth_bind, engageText_map, engageBoth_map,
      engageTls_map]
  have htuning : tuningScript o.tidied = tuningScript o := by
    simp only [tuningScript, ConnectionOptions.tidied, ConnectionOptions.cTexts,
      ConnectionOptions.withoutLoneHalves, engageText_map]
  simp only [afterUrl, scriptAfter, htoken, hcredentials, huser, htls, htuning]
  rfl

/-- The call for the servers depends on what is read of them. -/
theorem urlScript_congr {o o' : ConnectionOptions} (hservers : o.serverList = o'.serverList)
    (hurl : o.tidied.url = o'.tidied.url) : urlScript o = urlScript o' := by
  by_cases hurls : o.urls = []
  · have hurls' : o'.urls = [] := by
      by_contra hne
      simp [ConnectionOptions.serverList, hurls, hne] at hservers
    have htext : cText o.url = cText o'.url := by
      simpa [ConnectionOptions.tidied_url, hurls, hurls'] using hurl
    simp [urlScript, hurls, hurls', htext]
  · have hurls' : o'.urls ≠ [] := by
      intro hempty
      simp [ConnectionOptions.serverList, hurls, hempty] at hservers
    obtain ⟨hlist, hcount⟩ : o.servers = o'.servers ∧ o.serversCount = o'.serversCount := by
      simpa [ConnectionOptions.serverList, hurls, hurls'] using hservers
    simp [urlScript, hurls, hurls', hlist, hcount]

@[simp] theorem engage_none {α : Type} (set : α → Setting) : engage none set = [] := rfl

@[simp] theorem engageText_none (set : String → Setting) : engageText none set = [] := rfl

@[simp] theorem engageBoth_none (set : String → String → Setting) :
    engageBoth none none set = [] := rfl

@[simp] theorem engageTls_none (set : String → Setting) : engageTls tls none set = [] := rfl

/-- What follows the options for TLS. -/
def afterTls : Script := callbackScript o handlers ++ reconnectScript o ++ tuningScript o

/-- An exception ends what is read of the options. -/
theorem script_eq_append {o o' : ConnectionOptions} {e : Error} {rest : Script}
    (hbefore : scriptBefore o' ++ (credentialsScript o' ++ userScript o') =
      scriptBefore o ++ (credentialsScript o ++ userScript o))
    (htls : tlsScript tls o = tlsScript tls o' ++ .error e :: rest)
    (hafter : afterTls o' handlers = []) :
    script tls o handlers = script tls o' handlers ++ .error e :: (rest ++ afterTls o handlers) := by
  have hscript (o : ConnectionOptions) : script tls o handlers =
      scriptBefore o ++ (credentialsScript o ++ userScript o) ++
        (tlsScript tls o ++ afterTls o handlers) := by
    simp only [script, scriptAfter, afterTls, List.append_assoc]
  rw [hscript o, hscript o', hbefore, htls, hafter]
  simp only [List.append_assoc, List.cons_append, List.append_nil]

theorem tlsScript_of_certsPath {path : String} (hpath : o.caCertsPath = some path) :
    tlsScript false o = tlsScript false o.beforeCertsPath ++
      .error TlsOption.caCertsPath.exception ::
        (engageBoth o.certificatesChainFile o.privateKeyFile .loadCertificatesChain ++
          engage o.skipServerVerification .skipServerVerification ++
          engageText o.expectedHostname .setExpectedHostname ++
          engageText o.ciphers .setCiphers ++
          engageTls false o.cipherSuites .setCipherSuites) := by
  have hentry : engageTls false o.caCertsPath .loadCATrustedCertificatesPath =
      [.error TlsOption.caCertsPath.exception] := by
    rw [hpath]
    rfl
  simp only [tlsScript, hentry, ConnectionOptions.beforeCertsPath, engage_none, engageText_none,
    engageBoth_none, engageTls_none, List.append_assoc, List.append_nil, List.cons_append, List.nil_append]

theorem tlsScript_of_cipherSuites {suites : String} (hpath : o.caCertsPath = none)
    (hsuites : o.cipherSuites = some suites) : tlsScript false o =
      tlsScript false o.beforeCipherSuites ++ [.error TlsOption.cipherSuites.exception] := by
  have hentry : engageTls false o.cipherSuites .setCipherSuites =
      [.error TlsOption.cipherSuites.exception] := by
    rw [hsuites]
    rfl
  simp only [tlsScript, hentry, hpath, ConnectionOptions.beforeCipherSuites,
    ConnectionOptions.beforeCertsPath, engageTls_none, List.append_assoc, List.append_nil]

/-- The script of the options that are read, and the exception that ends it. -/
theorem script_eq : ∃ rest, script tls o handlers = script tls (o.reached tls) handlers ++
    match o.refused tls with
    | none => []
    | some x => .error x.exception :: rest := by
  by_cases htls : tls = true
  · exact ⟨[], by simp [ConnectionOptions.reached, ConnectionOptions.refused, htls]⟩
  obtain rfl : tls = false := Bool.eq_false_iff.mpr htls
  cases hpath : o.caCertsPath with
  | some path =>
    have hrefused : o.refused false = some .caCertsPath := by
      simp [ConnectionOptions.refused, hpath]
    simp only [ConnectionOptions.reached, hrefused]
    exact ⟨_, script_eq_append false handlers rfl (tlsScript_of_certsPath o hpath) rfl⟩
  | none =>
    cases hsuites : o.cipherSuites with
    | none =>
      exact ⟨[], by simp [ConnectionOptions.reached, ConnectionOptions.refused, hpath, hsuites]⟩
    | some suites =>
      have hrefused : o.refused false = some .cipherSuites := by
        simp [ConnectionOptions.refused, hpath, hsuites]
      simp only [ConnectionOptions.reached, hrefused]
      exact ⟨_, script_eq_append false handlers rfl (tlsScript_of_cipherSuites o hpath hsuites) rfl⟩

theorem error_mem_script {e : Error} (h : .error e ∈ script tls o handlers) :
    tls = false ∧ (o.caCertsPath.isSome ∨ o.cipherSuites.isSome) := by
  have hurl : .error e ∉ urlScript o := by
    unfold urlScript
    split <;> simp
  have hengage {α : Type} (field : Option α) (set : α → Setting) :
      .error e ∉ engage field set := by
    cases field <;> simp [engage]
  have htext (field : Option String) (set : String → Setting) : .error e ∉ engageText field set :=
    hengage field _
  have hboth (field other : Option String) (set : String → String → Setting) :
      .error e ∉ engageBoth field other set := by
    cases field <;> cases other <;> simp [engageBoth]
  have hTls {field : Option String} {set : String → Setting}
      (he : .error e ∈ engageTls tls field set) : tls = false ∧ field.isSome := by
    cases field <;> cases tls <;> simp [engageTls] at he ⊢
  simp only [script, scriptBefore, scriptAfter, tokenScript, credentialsScript, userScript,
    tlsScript, callbackScript, reconnectScript, tuningScript, List.mem_append, hurl, hengage, htext,
    hboth, or_false, false_or] at h
  obtain he | he := h
  · exact ⟨(hTls he).1, .inl (hTls he).2⟩
  · exact ⟨(hTls he).1, .inr (hTls he).2⟩

theorem reached_of_noTls : (o.reached false).caCertsPath = none ∧
    (o.reached false).cipherSuites = none := by
  cases hpath : o.caCertsPath <;> cases hsuites : o.cipherSuites <;>
    simp [ConnectionOptions.reached, ConnectionOptions.refused, hpath, hsuites,
      ConnectionOptions.beforeCertsPath, ConnectionOptions.beforeCipherSuites]

theorem serverList_reached : (o.reached tls).serverList = o.serverList := by
  unfold ConnectionOptions.reached
  split <;> rfl

theorem map_settings {xs : Script} (h : ∀ e, .error e ∉ xs) : xs = (settings xs).map .ok := by
  induction xs with
  | nil => rfl
  | cons x xs ih =>
    cases x with
    | error e => exact absurd List.mem_cons_self (h e)
    | ok x =>
      have hrest := ih fun e he => h e (List.mem_cons_of_mem _ he)
      rw [settings, List.map_cons, ← hrest]

/-- The options that are read cause no exception of their own. -/
theorem script_reached : script tls (o.reached tls) handlers =
    (settings (script tls (o.reached tls) handlers)).map .ok := by
  refine map_settings fun e he => ?_
  obtain ⟨rfl, h⟩ := error_mem_script tls _ handlers he
  simp [reached_of_noTls o] at h

end Scripts

section Programs

variable (nats : Nats) (tls : Bool) (nopts : ℕ) (o : ConnectionOptions) (handlers : ℕ)

theorem setup_eq : setup nats tls nopts o handlers = (do
    applyScript nats nopts (script tls (o.reached tls) handlers)
    match o.refused tls with
    | none =>
      if o.retryOnFailedConnect then
        setOption nats nopts (.setRetryOnFailedConnect true)
      natsConnectionConnect nats nopts
    | some x => throw x.exception) := by
  obtain ⟨rest, hscript⟩ := script_eq tls o handlers
  rw [setup, applyNatsOptions, hscript]
  cases o.refused tls with
  | none => rw [List.append_nil]
  | some x =>
    rw [applyScript_append, bind_assoc]
    rfl

variable {tls o} {o' : ConnectionOptions}

/-- What `connect` does is determined by what is read of its options. -/
theorem connect_congr (h : o.effective tls = o'.effective tls) (object : ℕ) :
    connect nats tls object o = connect nats tls object o' := by
  obtain ⟨htidied, hservers, hrefused, hhandlers⟩ := ConnectionOptions.Effective.mk.inj h
  have hengaged : o.engaged = o'.engaged := by
    rw [ConnectionOptions.engaged, hhandlers, ConnectionOptions.engaged]
  have hscript (handlers : ℕ) : script tls (o.reached tls) handlers =
      script tls (o'.reached tls) handlers := by
    rw [← serverList_reached tls o, ← serverList_reached tls o'] at hservers
    rw [script_eq_urlScript_append, script_eq_urlScript_append, ← afterUrl_tidied, htidied,
      afterUrl_tidied, urlScript_congr hservers (congrArg ConnectionOptions.url htidied)]
  have hretry (hnone : o'.refused tls = none) :
      o.retryOnFailedConnect = o'.retryOnFailedConnect := by
    have hretry := congrArg ConnectionOptions.retryOnFailedConnect htidied
    simpa [ConnectionOptions.reached, ConnectionOptions.tidied, ConnectionOptions.cTexts,
      ConnectionOptions.withoutLoneHalves, hrefused, hnone] using hretry
  have hsetup (nopts handlers : ℕ) :
      setup nats tls nopts o handlers = setup nats tls nopts o' handlers := by
    rw [setup_eq, setup_eq, hscript, hrefused]
    cases hnone : o'.refused tls with
    | none => rw [hretry hnone]
    | some x => rfl
  simp only [connect, connectWith, makeHandlers, hengaged, hhandlers, hsetup]

end Programs

/-! ## What a call of `connect` tells -/

section Fields

variable {tls : Bool} {o o' : ConnectionOptions} {handlers : ℕ}

/-- An option with a value that is read beside it. -/
theorem eq_of_beside {α β : Type} {f f' : Option α} {c c' : β}
    (h : ∀ v w, (f = some v ∧ w = c) ↔ (f' = some v ∧ w = c')) :
    f = f' ∧ ∀ v, f' = some v → c = c' := by
  have hsame : f = f' := by
    refine Option.ext fun v => ⟨fun hf => ?_, fun hf => ?_⟩
    · exact ((h v c).mp ⟨hf, rfl⟩).1
    · exact ((h v c').mpr ⟨hf, rfl⟩).1
  exact ⟨hsame, fun v hv => ((h v c).mp ⟨hsame.trans hv, rfl⟩).2⟩

theorem bind_congr_of_some {α β : Type} {f f' : Option α} {c c' : Option β} (hf : f = f')
    (h : ∀ v, f' = some v → c = c') : (f.bind fun _ => c) = f'.bind fun _ => c' := by
  subst hf
  cases hsome : f with
  | none => rfl
  | some v => exact h v hsome

/-- Two options that are read only together. -/
theorem eq_of_both {α β : Type} {f f' : Option α} {g g' : Option β}
    (h : ∀ v w, (f = some v ∧ g = some w) ↔ (f' = some v ∧ g' = some w)) :
    (g.bind fun _ => f) = (g'.bind fun _ => f') ∧ (f.bind fun _ => g) = f'.bind fun _ => g' := by
  by_cases hboth : ∃ v w, f = some v ∧ g = some w
  · obtain ⟨v, w, rfl, rfl⟩ := hboth
    obtain ⟨rfl, rfl⟩ := (h v w).mp ⟨rfl, rfl⟩
    exact ⟨rfl, rfl⟩
  · have hnone {f : Option α} {g : Option β} (hmissing : ¬ ∃ v w, f = some v ∧ g = some w) :
        (g.bind fun _ => f) = none ∧ (f.bind fun _ => g) = none := by
      cases f <;> cases g <;> simp at hmissing ⊢
    have hother : ¬ ∃ v w, f' = some v ∧ g' = some w := by simpa only [h] using hboth
    simp only [hnone hboth, hnone hother, and_self]

/-- Options with the same calls have the same servers. -/
theorem servers_eq_of_from (hfrom : ∀ x : Setting, x.From tls o handlers ↔ x.From tls o' handlers) :
    o.serverList = o'.serverList ∧ o.tidied.url = o'.tidied.url := by
  rw [ConnectionOptions.serverList, ConnectionOptions.serverList, ConnectionOptions.tidied_url,
    ConnectionOptions.tidied_url]
  by_cases hempty : o.urls = []
  · obtain ⟨hempty', hurl⟩ := (hfrom (.setURL (cText o.url))).mp ⟨hempty, rfl⟩
    simp [hempty, hempty', hurl]
  · obtain ⟨hne, hservers, hcount⟩ := (hfrom (.setServers o.servers _)).mp ⟨hempty, rfl, rfl⟩
    simp [hempty, hne, hservers, hcount]

/-- They have the same fields, as far as they are read. -/
theorem tidied_eq_of_from (hfrom : ∀ x : Setting, x.From tls o handlers ↔ x.From tls o' handlers)
    (hhandlers : o.handlers = o'.handlers)
    (hretry : o.retryOnFailedConnect = o'.retryOnFailedConnect)
    (htls : tls = false → (o.caCertsPath = none ∧ o.cipherSuites = none) ∧
      o'.caCertsPath = none ∧ o'.cipherSuites = none) : o.tidied = o'.tidied := by
  obtain ⟨hhandler, hclosure⟩ := eq_of_beside fun v closure => hfrom (.setTokenHandler v closure)
  obtain ⟨hnkey, hsignature⟩ : o.nkeyPublic.map cText = o'.nkeyPublic.map cText ∧
      ∀ v, o'.nkeyPublic.map cText = some v →
        (o.nkeySignatureCb, o.nkeySignatureClosure) =
          (o'.nkeySignatureCb, o'.nkeySignatureClosure) := by
    refine eq_of_beside fun v closure => ?_
    simp only [Prod.ext_iff]
    exact hfrom (.setNKey v closure.1 closure.2)
  obtain ⟨hcredentials, hseed⟩ :=
    eq_of_beside fun v seed => hfrom (.setUserCredentialsFromFiles v seed)
  obtain ⟨huser, hpassword⟩ := eq_of_both fun v w => hfrom (.setUserInfo v w)
  obtain ⟨hchain, hkey⟩ := eq_of_both fun v w => hfrom (.loadCertificatesChain v w)
  have hneedsTls {f f' : Option String} (hset : ∀ v, (tls = true ∧ f.map cText = some v) ↔
      (tls = true ∧ f'.map cText = some v)) (hnone : tls = false → f = none ∧ f' = none) :
      f.map cText = f'.map cText := by
    cases tls with
    | true => exact Option.ext fun v => by simpa only [true_and] using hset v
    | false => rw [(hnone rfl).1, (hnone rfl).2]
  obtain ⟨hclosed, hdisconnected, hreconnected, herror, hlameDuck, hdiscovered⟩ :=
    CallbackHandlers.mk.inj hhandlers
  apply ConnectionOptions.ext
  case token => exact Option.ext fun v => hfrom (.setToken v)
  case secure => exact Option.ext fun v => hfrom (.setSecure v)
  case caTrustedCertificatesFile => exact Option.ext fun v => hfrom (.loadCATrustedCertificates v)
  case skipServerVerification => exact Option.ext fun v => hfrom (.skipServerVerification v)
  case expectedHostname => exact Option.ext fun v => hfrom (.setExpectedHostname v)
  case ciphers => exact Option.ext fun v => hfrom (.setCiphers v)
  case reconnectWait => exact Option.ext fun v => hfrom (.setReconnectWait v)
  case maxReconnect => exact Option.ext fun v => hfrom (.setMaxReconnect v)
  case allowReconnect => exact Option.ext fun v => hfrom (.setAllowReconnect v)
  case noRandomize => exact Option.ext fun v => hfrom (.setNoRandomize v)
  case maxPingsOut => exact Option.ext fun v => hfrom (.setMaxPingsOut v)
  case reconnectBufSize => exact Option.ext fun v => hfrom (.setReconnectBufSize v)
  case maxPendingMsgs => exact Option.ext fun v => hfrom (.setMaxPendingMsgs v)
  case maxPendingBytes => exact Option.ext fun v => hfrom (.setMaxPendingBytes v)
  case ioBufSize => exact Option.ext fun v => hfrom (.setIOBufSize v)
  case sendAsap => exact Option.ext fun v => hfrom (.setSendAsap v)
  case failRequestsOnDisconnect => exact Option.ext fun v => hfrom (.setFailRequestsOnDisconnect v)
  case ignoreDiscoveredServers => exact Option.ext fun v => hfrom (.setIgnoreDiscoveredServers v)
  case disableNoResponders => exact Option.ext fun v => hfrom (.disableNoResponders v)
  case useOldRequestStyle => exact Option.ext fun v => hfrom (.useOldRequestStyle v)
  case customInboxPrefix => exact Option.ext fun v => hfrom (.setCustomInboxPrefix v)
  case pedantic => exact Option.ext fun v => hfrom (.setPedantic v)
  case verbose => exact Option.ext fun v => hfrom (.setVerbose v)
  case pingInterval => exact Option.ext fun v => hfrom (.setPingInterval v)
  case timeout => exact Option.ext fun v => hfrom (.setTimeout v)
  case name => exact Option.ext fun v => hfrom (.setName v)
  case noEcho => exact Option.ext fun v => hfrom (.setNoEcho v)
  case reconnectJitter => exact Option.ext fun v => hfrom (.setReconnectJitter v.1 v.2)
  case urls => rfl
  case url => exact (servers_eq_of_from hfrom).2
  case tokenHandlerCb => exact hhandler
  case nkeyPublic => exact hnkey
  case userCredentialsFile => exact hcredentials
  case user => exact huser
  case password => exact hpassword
  case certificatesChainFile => exact hchain
  case privateKeyFile => exact hkey
  case closedCb => exact hclosed
  case disconnectedCb => exact hdisconnected
  case reconnectedCb => exact hreconnected
  case errorHandler => exact herror
  case lameDuckModeCb => exact hlameDuck
  case discoveredServersCb => exact hdiscovered
  case retryOnFailedConnect => exact hretry
  case tokenHandlerClosure => exact bind_congr_of_some hhandler hclosure
  case nkeySignatureCb =>
    exact bind_congr_of_some hnkey fun v hv => (Prod.mk.inj (hsignature v hv)).1
  case nkeySignatureClosure =>
    exact bind_congr_of_some hnkey fun v hv => (Prod.mk.inj (hsignature v hv)).2
  case userNkeySeedFile => exact bind_congr_of_some hcredentials hseed
  case caCertsPath =>
    exact hneedsTls (fun v => hfrom (.loadCATrustedCertificatesPath v))
      fun h => ⟨(htls h).1.1, (htls h).2.1⟩
  case cipherSuites =>
    exact hneedsTls (fun v => hfrom (.setCipherSuites v)) fun h => ⟨(htls h).1.2, (htls h).2.2⟩

end Fields

section Told

/-- An nats.c that accepts every call. -/
def accepting : Nats where
  texts := ⟨fun _ => none, fun _ => none⟩
  status _ := .ok
  options _ := 0

theorem accepts_accepting (made cs : List Call) : accepting.Accepts made cs := by
  induction cs generalizing made with
  | nil => trivial
  | cons c cs ih => exact ⟨rfl, ih _⟩

/-- Nothing has happened yet. -/
def start : World := ⟨[], Connection.initial, fun _ => none⟩

variable (tls : Bool) (o : ConnectionOptions)

/-- The setters that are called if nats.c accepts every call. -/
def ConnectionOptions.called : List Setting :=
  settings (script tls (o.reached tls) 0) ++ if (o.refused tls).isSome then [] else retrySettings o

/-- How `connect` ends if nats.c accepts every call. -/
def ConnectionOptions.result : Except Error Unit :=
  match o.refused tls with
  | none => .ok ()
  | some x => .error x.exception

theorem outcome_setup_accepting (made : List Call) : ∃ cs, (∀ x, .set 0 x ∉ cs) ∧
    (setup accepting tls 0 o 0).outcome made =
      (o.result tls, made ++ (o.called tls).map (.set 0) ++ cs) := by
  have hscript : (applyScript accepting 0 (script tls (o.reached tls) 0)).outcome made =
      (.ok (), made ++ (settings (script tls (o.reached tls) 0)).map (.set 0)) := by
    obtain ⟨-, -, hout⟩ | ⟨hnot, -⟩ :=
      applyScript_cases accepting 0 made (script tls (o.reached tls) 0)
    · exact hout
    · exact absurd ⟨script_reached tls o 0, accepts_accepting _ _⟩ hnot
  rw [setup_eq, Effect.outcome_bind_of_ok _ _ _ hscript, ConnectionOptions.called,
    ConnectionOptions.result, retrySettings]
  cases o.refused tls with
  | some x => exact ⟨[], by simp, by simp⟩
  | none =>
    refine ⟨[.connect 0], by simp, ?_⟩
    have hset (x : Setting) (calls : List Call) :
        (setOption accepting 0 x).outcome calls = (.ok (), calls ++ [.set 0 x]) := rfl
    have hconnect (calls : List Call) :
        (natsConnectionConnect accepting 0).outcome calls = (.ok (), calls ++ [.connect 0]) := rfl
    cases o.retryOnFailedConnect with
    | false => simp [hconnect]
    | true =>
      simp only [if_true]
      rw [Effect.outcome_bind_of_ok _ _ _ (hset _ _), hconnect]
      simp

theorem outcome_connect_accepting : ∃ cs, (∀ x, .set 0 x ∉ cs) ∧
    (connect accepting tls 0 o).outcome start = (o.result tls,
      ⟨.optionsCreate :: (o.called tls).map (.set 0) ++ cs, Connection.initial,
        Function.update (fun _ => none) 0 (some o.handlers)⟩) := by
  obtain ⟨cs, hcs, hsetup⟩ := outcome_setup_accepting tls o [.optionsCreate]
  -- there is no connection object, so that the steps on it do nothing
  let copied : ℕ → Option CallbackHandlers :=
    Function.update (fun _ => none) 0 (some o.handlers)
  have hfired (ok : Bool) (calls : List Call) :
      fired (.advance (.object 0) ok) ⟨calls, Connection.initial, copied⟩ =
        ⟨calls, Connection.initial, copied⟩ := rfl
  have hdelete (calls : List Call) : deletePrevious 0 ⟨calls, Connection.initial, copied⟩ =
      ⟨calls, Connection.initial, copied⟩ := rfl
  have hcreate : (native (natsOptionsCreate accepting)).outcome start =
      (.ok 0, ⟨[.optionsCreate], Connection.initial, fun _ => none⟩) := rfl
  have hhandlers : (makeHandlers 0 o).outcome ⟨[.optionsCreate], Connection.initial, fun _ => none⟩ =
      (.ok 0, ⟨[.optionsCreate], Connection.initial, copied⟩) := rfl
  have hnative : (native (setup accepting tls 0 o 0)).outcome
      ⟨[.optionsCreate], Connection.initial, copied⟩ = (o.result tls,
        ⟨[.optionsCreate] ++ (o.called tls).map (.set 0) ++ cs, Connection.initial, copied⟩) := by
    simp only [native, Effect.outcome_within, hsetup]
  refine ⟨cs ++ [.optionsDestroy 0], by simpa using hcs, ?_⟩
  rw [connect, Effect.outcome_bind_of_ok _ _ _ hcreate, Effect.outcome_guarded, connectWith,
    Effect.outcome_bind_of_ok _ _ _ hhandlers]
  cases hresult : o.result tls with
  | error e =>
    rw [hresult] at hnative
    rw [Effect.outcome_bind_of_error _ _ _ (Effect.outcome_unwinding_of_error _ _ _ hnative)]
    simp only [destroyOptions, hfired, List.append_assoc]
    rfl
  | ok =>
    rw [hresult] at hnative
    rw [Effect.outcome_bind_of_ok _ _ _ (Effect.outcome_unwinding_of_ok _ _ _ hnative)]
    simp only [Effect.outcome_bind, Effect.outcome_update, destroyOptions, hfired, hdelete,
      List.append_assoc]
    rfl

variable {tls o} {o' : ConnectionOptions}

theorem refused_eq_of_result (h : o.result tls = o'.result tls) :
    o.refused tls = o'.refused tls := by
  unfold ConnectionOptions.result at h
  cases hx : o.refused tls with
  | none =>
    cases hy : o'.refused tls with
    | none => rfl
    | some y =>
      rw [hx, hy] at h
      contradiction
  | some x =>
    cases hy : o'.refused tls with
    | none =>
      rw [hx, hy] at h
      contradiction
    | some y =>
      rw [hx, hy] at h
      rw [TlsOption.exception_injective (Except.error.inj h)]

theorem mem_called_iff {x : Setting} : x ∈ o.called tls ↔
    x.From tls (o.reached tls) 0 ∨ (o.refused tls = none ∧ x ∈ retrySettings o) := by
  rw [ConnectionOptions.called, List.mem_append, mem_settings_iff (script_reached tls o 0),
    ok_mem_script_iff]
  cases o.refused tls <;> simp

theorem not_from_of_mem_retrySettings {x : Setting} (h : x ∈ retrySettings o) (handlers : ℕ) :
    ¬ x.From tls o' handlers := by
  unfold retrySettings at h
  split at h
  · rw [List.mem_singleton.mp h]
    exact id
  · contradiction

/-- The setters called, the exception and the handlers tell all that is read. -/
theorem effective_eq_of_called (hrefused : o.refused tls = o'.refused tls)
    (hhandlers : o.handlers = o'.handlers) (hcalled : ∀ x, x ∈ o.called tls ↔ x ∈ o'.called tls) :
    o.effective tls = o'.effective tls := by
  have hfrom (x : Setting) :
      x.From tls (o.reached tls) 0 ↔ x.From tls (o'.reached tls) 0 := by
    have hx := hcalled x
    simp only [mem_called_iff] at hx
    constructor
    · intro h
      exact (hx.mp (.inl h)).resolve_right fun hretry => not_from_of_mem_retrySettings hretry.2 0 h
    · intro h
      exact (hx.mpr (.inl h)).resolve_right fun hretry => not_from_of_mem_retrySettings hretry.2 0 h
  have htls (hfalse : tls = false) (o : ConnectionOptions) :
      (o.reached tls).caCertsPath = none ∧ (o.reached tls).cipherSuites = none := by
    subst hfalse
    exact reached_of_noTls o
  have htidied : (o.reached tls).tidied = (o'.reached tls).tidied := by
    refine tidied_eq_of_from hfrom ?_ ?_ fun hfalse => ⟨htls hfalse o, htls hfalse o'⟩
    · rw [ConnectionOptions.reached, ConnectionOptions.reached, hrefused]
      cases o'.refused tls with
      | none => exact hhandlers
      | some x => cases x <;> rfl
    · have hretry := hcalled (.setRetryOnFailedConnect true)
      simp only [mem_called_iff, Setting.From, false_or, hrefused, retrySettings] at hretry
      rw [ConnectionOptions.reached, ConnectionOptions.reached, hrefused]
      cases hnone : o'.refused tls with
      | none =>
        rw [hnone] at hretry
        cases hleft : o.retryOnFailedConnect <;> cases hright : o'.retryOnFailedConnect <;>
          simp [hleft, hright] at hretry ⊢
      | some x => cases x <;> rfl
  have hservers : o.serverList = o'.serverList := by
    rw [← serverList_reached tls o, ← serverList_reached tls o', (servers_eq_of_from hfrom).1]
  rw [ConnectionOptions.effective, ConnectionOptions.effective, htidied, hservers, hrefused,
    hhandlers]

end Told

/-- Two values of the options can be told apart by a call of `connect`, with some answers of
nats.c, if and only if they differ in what is read of them. -/
theorem connect_eq_iff (tls : Bool) (o o' : ConnectionOptions) :
    (∀ nats object, connect nats tls object o = connect nats tls object o') ↔
      o.effective tls = o'.effective tls := by
  refine ⟨fun h => ?_, fun h nats object => connect_congr nats h object⟩
  obtain ⟨cs, hcs, hout⟩ := outcome_connect_accepting tls o
  obtain ⟨cs', hcs', hout'⟩ := outcome_connect_accepting tls o'
  rw [h accepting 0, hout', Prod.mk.injEq, World.mk.injEq] at hout
  obtain ⟨hresult, hcalls, -, hcopied⟩ := hout
  have hmem {xs : List Setting} {cs : List Call} (hcs : ∀ x, .set 0 x ∉ cs) (x : Setting) :
      .set 0 x ∈ .optionsCreate :: xs.map (.set 0) ++ cs ↔ x ∈ xs := by
    simp [hcs]
  refine effective_eq_of_called (refused_eq_of_result hresult.symm) ?_ fun x => ?_
  · have hzero := congrFun hcopied 0
    simpa using hzero.symm
  · rw [← hmem hcs x, ← hmem hcs' x, hcalls]

end NatsCpp.Connect
