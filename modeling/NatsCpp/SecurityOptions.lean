import NatsCpp.ConnectCall

/-!
# Which options reach nats.c

A `connect` that returns has passed every authentication and TLS option that is
engaged, where the two halves of a pair count together. A seed file that was
left out of `set_user_credentials_from_files` is passed as an empty name.
-/
namespace NatsCpp.Connect

/-- The authentication and TLS options. -/
inductive SecurityOption where
  | token
  | tokenHandler
  | user
  | password
  | userCredentialsFile
  | userNkeySeedFile
  | nkeyPublic
  | secure
  | caTrustedCertificatesFile
  | caCertsPath
  | certificatesChainFile
  | privateKeyFile
  | skipServerVerification
  | expectedHostname
  | ciphers
  | cipherSuites
  deriving DecidableEq

namespace SecurityOption

/-- The option has a value. -/
def Engaged (o : ConnectionOptions) : SecurityOption → Prop
  | .token => o.token.isSome
  | .tokenHandler => o.tokenHandlerCb.isSome
  | .user => o.user.isSome
  | .password => o.password.isSome
  | .userCredentialsFile => o.userCredentialsFile.isSome
  | .userNkeySeedFile => o.userNkeySeedFile.isSome
  | .nkeyPublic => o.nkeyPublic.isSome
  | .secure => o.secure.isSome
  | .caTrustedCertificatesFile => o.caTrustedCertificatesFile.isSome
  | .caCertsPath => o.caCertsPath.isSome
  | .certificatesChainFile => o.certificatesChainFile.isSome
  | .privateKeyFile => o.privateKeyFile.isSome
  | .skipServerVerification => o.skipServerVerification.isSome
  | .expectedHostname => o.expectedHostname.isSome
  | .ciphers => o.ciphers.isSome
  | .cipherSuites => o.cipherSuites.isSome

/-- The option that it is used together with has a value too. -/
def Paired (o : ConnectionOptions) : SecurityOption → Prop
  | .user => o.password.isSome
  | .password => o.user.isSome
  | .userNkeySeedFile => o.userCredentialsFile.isSome
  | .certificatesChainFile => o.privateKeyFile.isSome
  | .privateKeyFile => o.certificatesChainFile.isSome
  | _ => True

/-- A call of a setter with the value of the option, a text up to its first NUL. -/
def CarriedBy (o : ConnectionOptions) : SecurityOption → Setting → Prop
  | .token, x => ∃ v, o.token = some v ∧ x = .setToken (cText v)
  | .tokenHandler, x =>
    ∃ v, o.tokenHandlerCb = some v ∧ x = .setTokenHandler v o.tokenHandlerClosure
  | .user, x => ∃ v w, o.user = some v ∧ x = .setUserInfo (cText v) w
  | .password, x => ∃ v w, o.password = some w ∧ x = .setUserInfo v (cText w)
  | .userCredentialsFile, x =>
    ∃ v w, o.userCredentialsFile = some v ∧ x = .setUserCredentialsFromFiles (cText v) w
  | .userNkeySeedFile, x =>
    ∃ v w, o.userNkeySeedFile = some w ∧ x = .setUserCredentialsFromFiles v (some (cText w))
  | .nkeyPublic, x =>
    ∃ v, o.nkeyPublic = some v ∧ x = .setNKey (cText v) o.nkeySignatureCb o.nkeySignatureClosure
  | .secure, x => ∃ v, o.secure = some v ∧ x = .setSecure v
  | .caTrustedCertificatesFile, x =>
    ∃ v, o.caTrustedCertificatesFile = some v ∧ x = .loadCATrustedCertificates (cText v)
  | .caCertsPath, x => ∃ v, o.caCertsPath = some v ∧ x = .loadCATrustedCertificatesPath (cText v)
  | .certificatesChainFile, x =>
    ∃ v w, o.certificatesChainFile = some v ∧ x = .loadCertificatesChain (cText v) w
  | .privateKeyFile, x => ∃ v w, o.privateKeyFile = some w ∧ x = .loadCertificatesChain v (cText w)
  | .skipServerVerification, x =>
    ∃ v, o.skipServerVerification = some v ∧ x = .skipServerVerification v
  | .expectedHostname, x => ∃ v, o.expectedHostname = some v ∧ x = .setExpectedHostname (cText v)
  | .ciphers, x => ∃ v, o.ciphers = some v ∧ x = .setCiphers (cText v)
  | .cipherSuites, x => ∃ v, o.cipherSuites = some v ∧ x = .setCipherSuites (cText v)

/-- The option has been passed to a setter of the options object that
`natsConnection_Connect` is then called with. -/
def PassedIn (o : ConnectionOptions) (made : List Call) (k : SecurityOption) : Prop :=
  ∃ nopts x before after, made = before ++ .connect nopts :: after ∧ .set nopts x ∈ before ∧
    k.CarriedBy o x

end SecurityOption

theorem error_not_mem_of_settings {xs : Script} (h : xs = (settings xs).map .ok) (e : Error) :
    .error e ∉ xs := by
  rw [h]
  simp

theorem error_mem_engageTls {tls : Bool} {field : Option String} (set : String → Setting)
    {v : String} (hfield : field = some v) (htls : tls = false) : ∃ e, .error e ∈ engageTls tls field set := by
  subst hfield htls
  exact ⟨_, List.mem_singleton.mpr rfl⟩

section Passed

variable {tls : Bool} {o : ConnectionOptions} {handlers : ℕ}

/-- In a build without TLS a script that does not throw has none of the two options. -/
theorem tls_of_engaged
    (hscript : script tls o handlers = (settings (script tls o handlers)).map .ok)
    (h : o.caCertsPath.isSome ∨ o.cipherSuites.isSome) : tls = true := by
  by_contra hne
  have htls : tls = false := Bool.eq_false_iff.mpr hne
  rcases h with h | h
  · obtain ⟨v, hv⟩ := Option.isSome_iff_exists.mp h
    obtain ⟨e, he⟩ := error_mem_engageTls .loadCATrustedCertificatesPath hv htls
    refine error_not_mem_of_settings hscript e ?_
    simp only [script, scriptAfter, tlsScript, List.mem_append, he, true_or, or_true]
  · obtain ⟨v, hv⟩ := Option.isSome_iff_exists.mp h
    obtain ⟨e, he⟩ := error_mem_engageTls .setCipherSuites hv htls
    refine error_not_mem_of_settings hscript e ?_
    simp only [script, scriptAfter, tlsScript, List.mem_append, he, true_or, or_true]

/-- The options that the script passes on are the engaged ones whose partner is engaged. -/
theorem exists_carried_iff (k : SecurityOption)
    (hscript : script tls o handlers = (settings (script tls o handlers)).map .ok) :
    (∃ x, .ok x ∈ script tls o handlers ∧ k.CarriedBy o x) ↔ k.Engaged o ∧ k.Paired o := by
  have htls := tls_of_engaged hscript
  simp only [ok_mem_script_iff, SecurityOption.CarriedBy, SecurityOption.Engaged,
    SecurityOption.Paired, Option.isSome_iff_exists] at htls ⊢
  cases k with
  | token | tokenHandler | nkeyPublic | secure | caTrustedCertificatesFile
  | skipServerVerification | expectedHostname | ciphers =>
    constructor
    · rintro ⟨x, -, v, hv, -⟩
      exact ⟨⟨v, hv⟩, trivial⟩
    · rintro ⟨⟨v, hv⟩, -⟩
      refine ⟨_, ?_, v, hv, rfl⟩
      simp [Setting.From, hv]
  | caCertsPath =>
    constructor
    · rintro ⟨x, -, v, hv, -⟩
      exact ⟨⟨v, hv⟩, trivial⟩
    · rintro ⟨⟨v, hv⟩, -⟩
      refine ⟨_, ?_, v, hv, rfl⟩
      exact ⟨htls (.inl ⟨v, hv⟩), congrArg (Option.map cText) hv⟩
  | cipherSuites =>
    constructor
    · rintro ⟨x, -, v, hv, -⟩
      exact ⟨⟨v, hv⟩, trivial⟩
    · rintro ⟨⟨v, hv⟩, -⟩
      refine ⟨_, ?_, v, hv, rfl⟩
      exact ⟨htls (.inr ⟨v, hv⟩), congrArg (Option.map cText) hv⟩
  | user | certificatesChainFile =>
    constructor
    · rintro ⟨x, hx, v, w, hv, rfl⟩
      obtain ⟨w, hw, -⟩ := Option.map_eq_some_iff.mp hx.2
      exact ⟨⟨v, hv⟩, w, hw⟩
    · rintro ⟨⟨v, hv⟩, w, hw⟩
      refine ⟨_, ?_, v, cText w, hv, rfl⟩
      exact ⟨congrArg (Option.map cText) hv, congrArg (Option.map cText) hw⟩
  | password | privateKeyFile =>
    constructor
    · rintro ⟨x, hx, v, w, hw, rfl⟩
      obtain ⟨v, hv, -⟩ := Option.map_eq_some_iff.mp hx.1
      exact ⟨⟨w, hw⟩, v, hv⟩
    · rintro ⟨⟨w, hw⟩, v, hv⟩
      refine ⟨_, ?_, cText v, w, hw, rfl⟩
      exact ⟨congrArg (Option.map cText) hv, congrArg (Option.map cText) hw⟩
  | userCredentialsFile =>
    constructor
    · rintro ⟨x, -, v, w, hv, -⟩
      exact ⟨⟨v, hv⟩, trivial⟩
    · rintro ⟨⟨v, hv⟩, -⟩
      refine ⟨_, ?_, v, o.userNkeySeedFile.map cText, hv, rfl⟩
      exact ⟨congrArg (Option.map cText) hv, rfl⟩
  | userNkeySeedFile =>
    constructor
    · rintro ⟨x, hx, v, w, hw, rfl⟩
      obtain ⟨v, hv, -⟩ := Option.map_eq_some_iff.mp hx.1
      exact ⟨⟨w, hw⟩, v, hv⟩
    · rintro ⟨⟨w, hw⟩, v, hv⟩
      refine ⟨_, ?_, cText v, w, hw, rfl⟩
      exact ⟨congrArg (Option.map cText) hv, (congrArg (Option.map cText) hw).symm⟩

end Passed

section Connect

variable {nats : Nats} {tls : Bool} {p : Prior} {options : ConnectionOptions}

/-- An option whose partner has no value is not seen by `connect`. -/
theorem connect_withoutLoneHalves (o : ℕ) :
    connect nats tls o options.withoutLoneHalves = connect nats tls o options := by
  simp only [connect, connectWith, setup, applyNatsOptions, script_withoutLoneHalves]
  rfl

theorem not_carriedBy_retry {k : SecurityOption} {x : Setting} (h : x ∈ retrySettings options) :
    ¬ k.CarriedBy options x := by
  unfold retrySettings at h
  split at h
  · obtain rfl := List.mem_singleton.mp h
    cases k <;> simp [SecurityOption.CarriedBy]
  · simp at h

/-- The options object of the connect call is the one that was created. -/
theorem connect_mem_allCalls {nopts : ℕ} (h : .connect nopts ∈ p.allCalls nats tls options) :
    nopts = p.nopts nats := by
  cases hlast : p.last <;> simpa [Prior.allCalls, setupCalls, hlast] using h

theorem passedIn_allCalls_iff (k : SecurityOption)
    (hscript : script tls options p.world.shared.fresh =
      (settings (script tls options p.world.shared.fresh)).map .ok) :
    k.PassedIn options (p.allCalls nats tls options) ↔ k.Engaged options ∧ k.Paired options := by
  rw [← exists_carried_iff k hscript]
  constructor
  · rintro ⟨nopts, x, before, after, hmade, hx, hcarried⟩
    have hmem : .connect nopts ∈ p.allCalls nats tls options := by simp [hmade]
    have hset : .set nopts x ∈ p.allCalls nats tls options := by simp [hmade, hx]
    rw [connect_mem_allCalls hmem, set_mem_allCalls tls options hscript] at hset
    exact ⟨x, hset.resolve_right fun hretry => not_carriedBy_retry hretry hcarried, hcarried⟩
  · rintro ⟨x, hx, hcarried⟩
    refine ⟨p.nopts nats, x, .optionsCreate ::
      (settings (script tls options p.world.shared.fresh) ++ retrySettings options).map
        (.set (p.nopts nats)),
      (p.last.map .connectionDestroy).toList ++ [.optionsDestroy (p.nopts nats)], ?_, ?_, hcarried⟩
    · rw [Prior.allCalls, setupCalls, List.append_assoc]
      rfl
    · have hset : x ∈ settings (script tls options p.world.shared.fresh) :=
        (mem_settings_iff hscript).mpr hx
      simp [hset]

/-- `connect` throws, or it has passed on exactly the options that are engaged
together with the option that they are used with. The others change nothing: it makes
the same calls and ends in the same way as without them. -/
theorem connect_passes (nats : Nats) (tls : Bool) (p : Prior) (options : ConnectionOptions) :
    let outcome := (connect nats tls p.o options).outcome p.world
    ((∃ e, outcome.1 = .error e) ∨
      ∃ made, outcome.2.calls = p.world.calls ++ made ∧ ∀ k : SecurityOption,
        k.PassedIn options made ↔ k.Engaged options ∧ k.Paired options) ∧
    (connect nats tls p.o options.withoutLoneHalves).outcome p.world = outcome := by
  intro outcome
  refine ⟨?_, by rw [connect_withoutLoneHalves]⟩
  have hends : Ends nats tls p options outcome := connect_ends nats tls p options
  generalize outcome = result at hends
  cases hends with
  | notCreated hstatus e => exact .inl ⟨e, rfl⟩
  | threw hstatus e done huses => exact .inl ⟨e, rfl⟩
  | returned hstatus hscript t ht =>
    exact .inr ⟨_, rfl, fun k => passedIn_allCalls_iff k hscript⟩

end Connect

/-- An nats.c that accepts every call. -/
def acceptingNats : Nats where
  texts := ⟨fun _ => none, fun _ => none⟩
  status _ := .ok
  options calls := calls.length

/-- A default-constructed connection object. -/
def defaultObject : Prior where
  world := ⟨[], Connection.defaultConstruct Connection.initial 0, fun _ => none⟩
  o := 0
  object := ⟨none, some 0, none, .idle, false⟩
  reached := Machine.Reachable.init.step (a := .construct 0) trivial rfl
  found := rfl
  idle := ⟨rfl, rfl⟩
  quiet := rfl

/-- `connect` throws, or every engaged option has been passed on. -/
def NothingDropped (nats : Nats) (tls : Bool) (p : Prior) (options : ConnectionOptions) : Prop :=
  let outcome := (connect nats tls p.o options).outcome p.world
  (∃ e, outcome.1 = .error e) ∨
    ∃ made, outcome.2.calls = p.world.calls ++ made ∧ ∀ k : SecurityOption,
      k.Engaged options → k.PassedIn options made

/-- A user without a password is dropped. -/
theorem userAlone_dropped :
    ¬ NothingDropped acceptingNats true defaultObject { user := some "user" } := by
  have hresult : ((connect acceptingNats true 0 { user := some "user" }).outcome
      defaultObject.world).1 = .ok () := rfl
  have hcalls : ((connect acceptingNats true 0 { user := some "user" }).outcome
      defaultObject.world).2.calls =
        [.optionsCreate, .set 1 (.setURL "nats://127.0.0.1:4222"), .connect 1, .optionsDestroy 1] :=
    rfl
  rintro (⟨e, he⟩ | ⟨made, hmade, hpassed⟩)
  · exact absurd (hresult.symm.trans he) (by simp)
  · obtain ⟨nopts, x, before, after, heq, hx, v, w, hv, rfl⟩ := hpassed .user rfl
    have hmem : .set nopts (.setUserInfo (cText v) w) ∈ made := by simp [heq, hx]
    have hnone := hcalls.symm.trans hmade
    rw [defaultObject, List.nil_append] at hnone
    simp [← hnone] at hmem

/-! ## Credentials without a seed file -/

def Call.isSet : Call → Bool
  | .set .. => true
  | _ => false

/-- The calls of the option setters. -/
def optionCalls (calls : List Call) : List Call := calls.filter Call.isSet

section Credentials

variable (nats : Nats) (tls : Bool) (p : Prior) (options : ConnectionOptions)

/-- The option calls of a `connect` are those of its setup. -/
theorem optionCalls_connect {r : Except Error Unit} {calls : List Call}
    (hcreated : nats.status (p.world.calls ++ [.optionsCreate]) = .ok)
    (hsetup : (setup nats tls (p.nopts nats) options p.world.shared.fresh).outcome
      (p.world.calls ++ [.optionsCreate]) = (r, calls)) :
    optionCalls ((connect nats tls p.o options).outcome p.world).2.calls = optionCalls calls := by
  rw [connect, Effect.outcome_bind_of_ok _ _ _ (created_of_ok nats p hcreated),
    Effect.outcome_guarded]
  cases r with
  | error e =>
    rw [connectWith_of_error p nats tls _ options _ hsetup]
    simp [destroyOptions, optionCalls, Call.isSet]
  | ok =>
    obtain ⟨t, ht, hdelete⟩ := exists_taken p options.engaged calls (p.copied options)
    rw [connectWith_of_ok p nats tls _ options _ hsetup, hdelete,
      fired_of_step _ _ (step_setHandlers p options.engaged ht)]
    cases p.last <;> simp [destroyOptions, optionCalls, Call.isSet]

end Credentials

theorem scriptBefore_eq (o : ConnectionOptions) :
    scriptBefore o = (settings (scriptBefore o)).map .ok := by
  unfold scriptBefore urlScript tokenScript engage
  cases o.token <;> cases o.tokenHandlerCb <;> cases o.nkeyPublic <;> split <;> rfl

/-- The call for a credentials file `f`. -/
def ConnectionOptions.credentials (o : ConnectionOptions) (f : String) : Setting :=
  .setUserCredentialsFromFiles (cText f) (o.userNkeySeedFile.map cText)

theorem script_of_credentials {tls : Bool} {o : ConnectionOptions} {handlers : ℕ} {f : String}
    (hf : o.userCredentialsFile = some f) : script tls o handlers =
      scriptBefore o ++ .ok (o.credentials f) :: scriptAfter tls o handlers := by
  simp [script, credentialsScript, engageText, engage, hf, ConnectionOptions.credentials]

section Reached

variable (nats : Nats) (tls : Bool) (nopts : ℕ) (o : ConnectionOptions) (handlers : ℕ)
  (made : List Call)

/-- The calls of the setters before that of the credentials. -/
def callsBefore : List Call := (settings (scriptBefore o)).map (.set nopts)

/-- What comes after a part of the script only adds calls. -/
theorem exists_more (xs : Script) : ∃ r more, ((do
      applyScript nats nopts xs
      if o.retryOnFailedConnect then
        setOption nats nopts (.setRetryOnFailedConnect true)
      natsConnectionConnect nats nopts : Program Call Error Unit).outcome made) =
        (r, made ++ more) := by
  rcases applyScript_cases nats nopts made xs with ⟨-, -, hout⟩ | ⟨-, e, done, -, hout⟩
  · obtain ⟨r, more, hr, -⟩ := retry_cases nats nopts o (made ++ (settings xs).map (.set nopts))
    rw [List.append_assoc] at hr
    exact ⟨r, _, (Effect.outcome_bind_of_ok _ _ _ hout).trans hr⟩
  · exact ⟨_, _, Effect.outcome_bind_of_error _ _ _ hout⟩

variable {f : String} (hf : o.userCredentialsFile = some f)
include hf

/-- If the earlier calls are accepted, then the credentials are passed. -/
theorem setup_of_accepts (h : nats.Accepts made (callsBefore nopts o)) :
    ∃ r more, (setup nats tls nopts o handlers).outcome made =
      (r, made ++ callsBefore nopts o ++ .set nopts (o.credentials f) :: more) := by
  obtain ⟨-, -, hbefore⟩ :=
    (applyScript_cases nats nopts made (scriptBefore o)).resolve_right fun hnot =>
      hnot.1 ⟨scriptBefore_eq o, h⟩
  rw [setup, applyNatsOptions, script_of_credentials hf, applyScript_append, bind_assoc,
    Effect.outcome_bind_of_ok _ _ _ hbefore, applyScript, bind_assoc]
  obtain ⟨r, hr, -⟩ := outcome_checked nats (made ++ callsBefore nopts o)
    (.set nopts (o.credentials f)) (o.credentials f).context
  change (perform nats nopts (.ok _)).outcome _ = _ at hr
  cases r with
  | error e => exact ⟨_, [], Effect.outcome_bind_of_error _ _ _ hr⟩
  | ok =>
    obtain ⟨r, more, hmore⟩ := exists_more nats nopts o (made ++ callsBefore nopts o ++
      [.set nopts (o.credentials f)]) (scriptAfter tls o handlers)
    rw [List.append_assoc _ [_]] at hmore
    exact ⟨r, more, (Effect.outcome_bind_of_ok _ _ _ hr).trans hmore⟩

/-- If one of the earlier calls is refused, then `connect` throws there. -/
theorem setup_of_not_accepts (h : ¬ nats.Accepts made (callsBefore nopts o)) :
    ∃ e done, (applyScript nats nopts (scriptBefore o)).outcome made = (.error e, made ++ done) ∧
      (setup nats tls nopts o handlers).outcome made = (.error e, made ++ done) := by
  obtain ⟨-, e, done, -, hbefore⟩ :=
    (applyScript_cases nats nopts made (scriptBefore o)).resolve_left fun hall => h hall.2.1
  refine ⟨e, _, hbefore, ?_⟩
  rw [setup, applyNatsOptions, script_of_credentials hf, applyScript_append, bind_assoc]
  exact Effect.outcome_bind_of_error _ _ _ hbefore

end Reached

/-- The same options with the credentials file written to its field. -/
def ConnectionOptions.withCredentialsFile (o : ConnectionOptions) (f : String) :
    ConnectionOptions :=
  { o with userCredentialsFile := some f, userNkeySeedFile := none }

/-- The setter without a seed file leads to the same option calls as the fields. -/
def AgreesWithFields (nats : Nats) (tls : Bool) (p : Prior) (o : ConnectionOptions) (f : String) :
    Prop :=
  optionCalls ((connect nats tls p.o
      (o.setUserCredentialsFromFiles f omittedFile)).outcome p.world).2.calls =
    optionCalls ((connect nats tls p.o (o.withCredentialsFile f)).outcome p.world).2.calls

/-- They agree exactly if `connect` throws before it comes to the credentials. -/
theorem agreesWithFields_iff (nats : Nats) (tls : Bool) (p : Prior) (o : ConnectionOptions)
    (f : String) : AgreesWithFields nats tls p o f ↔
      ¬ nats.Accepts p.world.calls (.optionsCreate :: callsBefore (p.nopts nats) o) := by
  unfold AgreesWithFields
  by_cases hcreated : nats.status (p.world.calls ++ [.optionsCreate]) = .ok
  · by_cases haccepts : nats.Accepts (p.world.calls ++ [.optionsCreate])
        (callsBefore (p.nopts nats) o)
    · refine iff_of_false ?_ (not_not_intro ⟨hcreated, haccepts⟩)
      obtain ⟨r, more, hsetter⟩ := setup_of_accepts nats tls (p.nopts nats)
        (o.setUserCredentialsFromFiles f omittedFile) p.world.shared.fresh
        (p.world.calls ++ [.optionsCreate]) rfl haccepts
      obtain ⟨r', more', hfields⟩ := setup_of_accepts nats tls (p.nopts nats)
        (o.withCredentialsFile f) p.world.shared.fresh (p.world.calls ++ [.optionsCreate]) rfl
        haccepts
      rw [optionCalls_connect nats tls p _ hcreated hsetter,
        optionCalls_connect nats tls p _ hcreated hfields]
      simp only [optionCalls, List.filter_append]
      intro heq
      have htail := List.append_cancel_left heq
      rw [List.filter_cons_of_pos rfl, List.filter_cons_of_pos rfl] at htail
      simp [ConnectionOptions.credentials, ConnectionOptions.setUserCredentialsFromFiles,
        ConnectionOptions.withCredentialsFile] at htail
    · refine iff_of_true ?_ fun hall => haccepts hall.2
      obtain ⟨e, done, hbefore, hsetter⟩ := setup_of_not_accepts nats tls (p.nopts nats)
        (o.setUserCredentialsFromFiles f omittedFile) p.world.shared.fresh
        (p.world.calls ++ [.optionsCreate]) rfl haccepts
      obtain ⟨e', done', hbefore', hfields⟩ := setup_of_not_accepts nats tls (p.nopts nats)
        (o.withCredentialsFile f) p.world.shared.fresh (p.world.calls ++ [.optionsCreate]) rfl
        haccepts
      have hsame := hbefore.symm.trans hbefore'
      rw [optionCalls_connect nats tls p _ hcreated hsetter,
        optionCalls_connect nats tls p _ hcreated hfields, (Prod.mk.inj hsame).2]
  · refine iff_of_true ?_ fun hall => hcreated hall.1
    obtain ⟨e, hsetter⟩ := connect_of_not_created nats tls p
      (o.setUserCredentialsFromFiles f omittedFile) hcreated
    obtain ⟨e', hfields⟩ := connect_of_not_created nats tls p (o.withCredentialsFile f) hcreated
    rw [hsetter, hfields]

/-- With an nats.c that accepts every call the seed file is an empty name. -/
theorem omittedSeed_not_agrees :
    ¬ AgreesWithFields acceptingNats true defaultObject {} "user.creds" := by
  unfold AgreesWithFields
  decide

end NatsCpp.Connect
