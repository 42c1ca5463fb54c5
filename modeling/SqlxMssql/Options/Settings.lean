import SqlxMssql.Options.Credentials

/-! # Settings in a connection string

Which connection strings are accepted, what options each of them stands for, and with which text
every other one is refused.
-/
namespace SqlxMssql
open Loops Utf8 PercentEscapes Assignments

section Words

/-- One of the words, in upper or lower case. -/
def Spells (words : List String) (value : Text) : Prop :=
  ∃ word ∈ words, eqIgnoreAsciiCase value word.toList

def booleanWords : Bool → List String
  | true => ["true", "yes", "1"]
  | false => ["false", "no", "0"]

/-- Each mode has a name, and two of them are also written as booleans. -/
def MssqlEncryption.words : MssqlEncryption → List String
  | .on => "on" :: booleanWords true
  | .required => ["required"]
  | .strict => ["strict"]
  | .preferOff => ["off", "prefer-off", "prefer_off"] ++ booleanWords false

theorem spells_iff {words : List String} (h : ∀ word ∈ words, toAsciiLowercase word.toList = word.toList)
    {value : Text} : Spells words value ↔ String.ofList (toAsciiLowercase value) ∈ words := by
  have heq {word : String} (hword : word ∈ words) :
      eqIgnoreAsciiCase value word.toList ↔ String.ofList (toAsciiLowercase value) = word := by
    rw [eqIgnoreAsciiCase, h word hword, decide_eq_true_iff, ← String.ofList_inj, String.ofList_toList]
  constructor
  · rintro ⟨word, hword, hsame⟩
    exact (heq hword).mp hsame ▸ hword
  · intro hmem
    exact ⟨_, hmem, (heq hmem).mpr rfl⟩

theorem spells_booleanWords {enabled : Bool} {value : Text} :
    Spells (booleanWords enabled) value ↔ String.ofList (toAsciiLowercase value) ∈ booleanWords enabled :=
  spells_iff (by cases enabled <;> decide +kernel)

theorem MssqlEncryption.spells_words {mode : MssqlEncryption} {value : Text} :
    Spells mode.words value ↔ String.ofList (toAsciiLowercase value) ∈ mode.words :=
  spells_iff (by cases mode <;> decide +kernel)

theorem parseBool_ok {key value : Text} {enabled : Bool} :
    parseBool key value = .ok enabled ↔ Spells (booleanWords enabled) value := by
  rw [spells_booleanWords]
  unfold parseBool
  split <;> cases enabled <;> simp_all [booleanWords]

theorem parseBool_error {key value error : Text} : parseBool key value = .error error ↔
    (∀ enabled, ¬ Spells (booleanWords enabled) value) ∧
      error = '`' :: key ++ "` must be a boolean, got `".toList ++ toAsciiLowercase value ++ ['`'] := by
  simp only [spells_booleanWords, Bool.forall_bool]
  unfold parseBool
  split <;> simp_all [booleanWords, eq_comm]

theorem parseEncryption_ok {key value : Text} {mode : MssqlEncryption} :
    parseEncryption key value = .ok mode ↔ Spells mode.words value := by
  rw [MssqlEncryption.spells_words]
  unfold parseEncryption
  split
  case h_7 =>
    cases hbool : parseBool key value with
    | ok enabled =>
      have hbooleans (other : Bool) :
          String.ofList (toAsciiLowercase value) ∈ booleanWords other ↔ enabled = other := by
        rw [← spells_booleanWords, ← @parseBool_ok key, hbool, Except.ok.injEq]
      cases enabled <;> cases mode <;> simp_all [MssqlEncryption.words]
    | error e =>
      have hnot := (parseBool_error.mp hbool).1
      simp only [spells_booleanWords] at hnot
      cases mode <;> simp_all [MssqlEncryption.words]
  all_goals cases mode <;> simp_all [MssqlEncryption.words, booleanWords]

theorem text_of_parseEncryption_error {key value error : Text} (h : parseEncryption key value = .error error) :
    error = '`' :: key ++ "` must be one of `on`, `required`, `strict` or `off`, got `".toList ++ value ++ ['`'] := by
  unfold parseEncryption at h
  split at h
  case h_7 =>
    split at h
    · cases h
    · exact (Except.error.inj h).symm
  all_goals cases h

theorem parseEncryption_error {key value error : Text} : parseEncryption key value = .error error ↔
    (∀ mode : MssqlEncryption, ¬ Spells mode.words value) ∧ error = '`' :: key ++
      "` must be one of `on`, `required`, `strict` or `off`, got `".toList ++ value ++ ['`'] := by
  constructor
  · intro h
    refine ⟨fun mode hmode => ?_, text_of_parseEncryption_error h⟩
    rw [parseEncryption_ok.mpr hmode] at h
    cases h
  · rintro ⟨hnot, rfl⟩
    cases hread : parseEncryption key value with
    | ok mode => exact absurd (parseEncryption_ok.mp hread) (hnot mode)
    | error e => rw [text_of_parseEncryption_error hread]

/-- A number in decimal digits, after a plus sign or none, that fits into this many bits. -/
def Numeral (bits : ℕ) (value : Text) (n : ℕ) : Prop :=
  ∃ digits, (value = digits ∨ value = '+' :: digits) ∧ digits ≠ [] ∧ (∀ c ∈ digits, c.isDigit) ∧
    Nat.ofDigitChars 10 digits 0 = n ∧ n < 2 ^ bits

theorem digitsValue_eq_some {digits : Text} {n : ℕ} : digitsValue digits = some n ↔
    digits ≠ [] ∧ (∀ c ∈ digits, c.isDigit) ∧ Nat.ofDigitChars 10 digits 0 = n := by
  rw [digitsValue, Option.ite_none_right_eq_some, List.all_eq_true, Option.some.injEq, and_assoc]

theorem parseUnsigned_eq_some {bits : ℕ} {value : Text} {n : ℕ} :
    parseUnsigned bits value = some n ↔ Numeral bits value n := by
  rw [parseUnsigned, Option.filter_eq_some_iff, decide_eq_true_iff, digitsValue_eq_some]
  constructor
  · rintro ⟨⟨hne, hdigits, hn⟩, hlt⟩
    refine ⟨_, ?_, hne, hdigits, hn, hlt⟩
    split
    · rename_i hsign
      exact .inr (List.eq_cons_of_mem_head? hsign)
    · exact .inl rfl
  · rintro ⟨digits, rfl | rfl, hne, hdigits, hn, hlt⟩
    · -- the first digit is no sign
      have hsign : value.head? ≠ some '+' := fun h =>
        absurd (hdigits '+' (List.mem_of_mem_head? h)) (by decide)
      rw [if_neg hsign]
      exact ⟨⟨hne, hdigits, hn⟩, hlt⟩
    · exact ⟨⟨hne, hdigits, hn⟩, hlt⟩

end Words

/-- The query parameters that the driver knows. -/
inductive Parameter where
  | database
  | encrypt
  | trustCertificate
  | serverCertificate
  | hostNameInCert
  | applicationName
  | connectTimeout
  deriving DecidableEq

namespace Parameter

def key : Parameter → Text
  | .database => "database".toList
  | .encrypt => "encrypt".toList
  | .trustCertificate => "trust_certificate".toList
  | .serverCertificate => "server_certificate".toList
  | .hostNameInCert => "host_name_in_cert".toList
  | .applicationName => "application_name".toList
  | .connectTimeout => "connect_timeout".toList

/-- The type of the option that a parameter sets. -/
def Value : Parameter → Type
  | .database => Text
  | .encrypt => MssqlEncryption
  | .trustCertificate => Bool
  | .serverCertificate | .hostNameInCert | .applicationName => Option Text
  | .connectTimeout => Option ℕ

def get : (parameter : Parameter) → MssqlConnectOptions → parameter.Value
  | .database, options => options.database
  | .encrypt, options => options.encryption
  | .trustCertificate, options => options.trustServerCertificate
  | .serverCertificate, options => options.serverCertificate
  | .hostNameInCert, options => options.hostNameInCert
  | .applicationName, options => options.applicationName
  | .connectTimeout, options => options.connectTimeout

def set : (parameter : Parameter) → parameter.Value → MssqlConnectOptions → MssqlConnectOptions
  | .database, setting, options => { options with database := setting }
  | .encrypt, setting, options => { options with encryption := setting }
  | .trustCertificate, setting, options => { options with trustServerCertificate := setting }
  | .serverCertificate, setting, options => { options with serverCertificate := setting }
  | .hostNameInCert, setting, options => { options with hostNameInCert := setting }
  | .applicationName, setting, options => { options with applicationName := setting }
  | .connectTimeout, setting, options => { options with connectTimeout := setting }

/-- What the text of a parameter says. -/
def Reads : (parameter : Parameter) → Text → parameter.Value → Prop
  | .database, value, setting => setting = value
  | .encrypt, value, mode => Spells (MssqlEncryption.words mode) value
  | .trustCertificate, value, enabled => Spells (booleanWords enabled) value
  | .serverCertificate, value, setting | .hostNameInCert, value, setting
  | .applicationName, value, setting => setting = some value
  | .connectTimeout, value, seconds => ∃ n, Numeral 64 value n ∧ seconds = some n

/-- What is said about a text that no value of the parameter is written as. -/
inductive Refuses : Parameter → Text → Text → Prop where
  | encrypt {value : Text} (h : ∀ mode : MssqlEncryption, ¬ Spells mode.words value) :
      Refuses .encrypt value ('`' :: key .encrypt ++
        "` must be one of `on`, `required`, `strict` or `off`, got `".toList ++ value ++ ['`'])
  | trustCertificate {value : Text} (h : ∀ enabled, ¬ Spells (booleanWords enabled) value) :
      Refuses .trustCertificate value ('`' :: key .trustCertificate ++
        "` must be a boolean, got `".toList ++ toAsciiLowercase value ++ ['`'])
  | connectTimeout {value : Text} (h : ∀ n, ¬ Numeral 64 value n) :
      Refuses .connectTimeout value
        ("`connect_timeout` must be a whole number of seconds, got `".toList ++ value ++ ['`'])

/-- The value that the driver reads in the text. -/
def parse : (parameter : Parameter) → Text → Except Text parameter.Value
  | .database, value => .ok value
  | .encrypt, value => parseEncryption (key .encrypt) value
  | .trustCertificate, value => parseBool (key .trustCertificate) value
  | .serverCertificate, value | .hostNameInCert, value | .applicationName, value => .ok (some value)
  | .connectTimeout, value =>
    match parseUnsigned 64 value with
    | some seconds => .ok (some seconds)
    | none => .error ("`connect_timeout` must be a whole number of seconds, got `".toList ++ value ++ ['`'])

theorem key_injective : ∀ parameter other : Parameter, parameter.key = other.key → parameter = other := by
  intro parameter other
  cases parameter <;> cases other <;> decide

theorem get_set (parameter : Parameter) (value : parameter.Value) (options : MssqlConnectOptions) :
    parameter.get (parameter.set value options) = value := by
  cases parameter <;> rfl

theorem get_set_of_ne {parameter other : Parameter} (h : other ≠ parameter) (value : other.Value)
    (options : MssqlConnectOptions) : parameter.get (other.set value options) = parameter.get options := by
  cases parameter <;> cases other <;> first | rfl | exact absurd rfl h

theorem parse_ok {parameter : Parameter} {value : Text} {setting : parameter.Value} :
    parameter.parse value = .ok setting ↔ parameter.Reads value setting := by
  cases parameter with
  | encrypt => exact parseEncryption_ok
  | trustCertificate => exact parseBool_ok
  | connectTimeout =>
    simp only [parse, Reads, ← parseUnsigned_eq_some]
    cases parseUnsigned 64 value with
    | none =>
      constructor
      · intro h
        cases h
      · rintro ⟨n, hn, -⟩
        cases hn
    | some seconds =>
      constructor
      · intro h
        exact ⟨seconds, rfl, (Except.ok.inj h).symm⟩
      · rintro ⟨n, hn, rfl⟩
        cases hn
        rfl
  | database | serverCertificate | hostNameInCert | applicationName =>
    constructor
    · intro h
      exact (Except.ok.inj h).symm
    · intro h
      exact congrArg Except.ok h.symm

theorem reads_unique (parameter : Parameter) {value : Text} {a b : parameter.Value} (ha : parameter.Reads value a)
    (hb : parameter.Reads value b) : a = b :=
  Except.ok.inj ((parse_ok.mpr ha).symm.trans (parse_ok.mpr hb))

theorem parse_error {parameter : Parameter} {value error : Text} :
    parameter.parse value = .error error ↔ parameter.Refuses value error := by
  constructor
  · intro h
    cases parameter with
    | encrypt =>
      obtain ⟨hnot, rfl⟩ := parseEncryption_error.mp h
      exact .encrypt hnot
    | trustCertificate =>
      obtain ⟨hnot, rfl⟩ := parseBool_error.mp h
      exact .trustCertificate hnot
    | connectTimeout =>
      simp only [parse] at h
      split at h
      · cases h
      · rename_i hnone
        cases h
        refine .connectTimeout fun n hn => ?_
        rw [parseUnsigned_eq_some.mpr hn] at hnone
        cases hnone
    | database | serverCertificate | hostNameInCert | applicationName => cases h
  · intro h
    cases h with
    | encrypt hnot => exact parseEncryption_error.mpr ⟨hnot, rfl⟩
    | trustCertificate hnot => exact parseBool_error.mpr ⟨hnot, rfl⟩
    | connectTimeout hnot =>
      have hnone : parseUnsigned 64 value = none := by
        rw [Option.eq_none_iff_forall_ne_some]
        intro n hn
        exact hnot n (parseUnsigned_eq_some.mp hn)
      simp only [parse, hnone]

end Parameter

section Applying
variable {options next : MssqlConnectOptions} {parameter : Parameter} {value : Text}

theorem applyParameter_key (parameter : Parameter) (value : Text) (options : MssqlConnectOptions) :
    applyParameter options (parameter.key, value) = (parameter.parse value).map (parameter.set · options) := by
  cases parameter with
  | connectTimeout =>
    show applyParameter options ("connect_timeout".toList, value) = _
    simp only [applyParameter, String.ofList_toList, Parameter.parse]
    cases parseUnsigned 64 value <;> rfl
  | _ => rfl

theorem applyParameter_unknown {key : Text} (h : ∀ parameter : Parameter, key ≠ parameter.key) (value : Text)
    (options : MssqlConnectOptions) : applyParameter options (key, value) = .ok options := by
  have hname {word : String} (heq : String.ofList key = word) : key = word.toList := by
    rw [← heq, String.toList_ofList]
  unfold applyParameter
  dsimp only
  split
  · next heq => exact absurd (hname heq) (h .database)
  · next heq => exact absurd (hname heq) (h .encrypt)
  · next heq => exact absurd (hname heq) (h .trustCertificate)
  · next heq => exact absurd (hname heq) (h .serverCertificate)
  · next heq => exact absurd (hname heq) (h .hostNameInCert)
  · next heq => exact absurd (hname heq) (h .applicationName)
  · next heq => exact absurd (hname heq) (h .connectTimeout)
  · rfl

/-- A parameter that is accepted sets its own option, and one that is not known sets nothing. -/
theorem applyParameter_cases {key : Text} (h : applyParameter options (key, value) = .ok next) :
    (∃ (parameter : Parameter) (setting : parameter.Value), key = parameter.key ∧
      parameter.Reads value setting ∧ next = parameter.set setting options) ∨ next = options := by
  by_cases hknown : ∃ parameter : Parameter, key = parameter.key
  · obtain ⟨parameter, rfl⟩ := hknown
    rw [applyParameter_key] at h
    obtain ⟨setting, hread, rfl⟩ := map_eq_ok.mp h
    exact .inl ⟨parameter, setting, rfl, Parameter.parse_ok.mp hread, rfl⟩
  · rw [applyParameter_unknown (fun parameter hkey => hknown ⟨parameter, hkey⟩)] at h
    exact .inr (Except.ok.inj h).symm

theorem applyParameter_sets (h : applyParameter options (parameter.key, value) = .ok next) :
    parameter.Reads value (parameter.get next) := by
  rw [applyParameter_key] at h
  obtain ⟨setting, hread, rfl⟩ := map_eq_ok.mp h
  rw [Parameter.get_set]
  exact Parameter.parse_ok.mp hread

theorem applyParameter_keeps {key : Text} (hkey : key ≠ parameter.key)
    (h : applyParameter options (key, value) = .ok next) : parameter.get next = parameter.get options := by
  rcases applyParameter_cases h with ⟨other, setting, rfl, -, rfl⟩ | rfl
  · exact Parameter.get_set_of_ne (fun heq => hkey (congrArg Parameter.key heq)) setting options
  · rfl

/-- The options that no parameter sets. -/
def MssqlConnectOptions.login (options : MssqlConnectOptions) : Text × UInt16 × Text × Text :=
  (options.host, options.port, options.username, options.password)

theorem Parameter.login_set (parameter : Parameter) (setting : parameter.Value) (options : MssqlConnectOptions) :
    (parameter.set setting options).login = options.login := by
  cases parameter <;> rfl

theorem applyParameter_login {pair : Text × Text} (h : applyParameter options pair = .ok next) :
    next.login = options.login := by
  rcases applyParameter_cases h with ⟨other, setting, -, -, rfl⟩ | rfl
  · exact other.login_set setting options
  · rfl

/-- The options with one login and the same settings are one. -/
theorem MssqlConnectOptions.eq_of_settings (hlogin : next.login = options.login)
    (h : ∀ parameter : Parameter, parameter.get next = parameter.get options) : next = options := by
  cases options
  cases next
  simp only [login, Prod.mk.injEq] at hlogin
  obtain ⟨rfl, rfl, rfl, rfl⟩ := hlogin
  cases h .database
  cases h .encrypt
  cases h .trustCertificate
  cases h .serverCertificate
  cases h .hostNameInCert
  cases h .applicationName
  cases h .connectTimeout
  rfl

def Refused (pair : Text × Text) (error : Text) : Prop :=
  ∃ parameter : Parameter, pair.1 = parameter.key ∧ parameter.Refuses pair.2 error

theorem applyParameter_error (options : MssqlConnectOptions) (pair : Text × Text) (error : Text) :
    applyParameter options pair = .error error ↔ Refused pair error := by
  obtain ⟨key, value⟩ := pair
  by_cases hknown : ∃ parameter : Parameter, key = parameter.key
  · obtain ⟨parameter, rfl⟩ := hknown
    rw [applyParameter_key, map_eq_error, Parameter.parse_error]
    constructor
    · intro h
      exact ⟨parameter, rfl, h⟩
    · rintro ⟨other, hkey, h⟩
      cases Parameter.key_injective parameter other hkey
      exact h
  · rw [applyParameter_unknown (fun parameter hkey => hknown ⟨parameter, hkey⟩)]
    constructor
    · intro h
      cases h
    · rintro ⟨parameter, hkey, -⟩
      exact absurd ⟨parameter, hkey⟩ hknown

end Applying

/-- The options that a URL stands for: its parts, and for every parameter the last value that the
query gives it, or else the default, which for the database is the path. -/
structure Url.StandsFor (url : Url) (options : MssqlConnectOptions) : Prop where
  scheme : eqIgnoreAsciiCase url.scheme "mssql".toList
  host : url.hostStr = some options.host
  port : options.port = url.port.getD 1433
  username : percentDecode url.username = .ok options.username
  password : percentDecode (url.password.getD []) = .ok options.password
  settings : ∃ database, percentDecode (trimSlashes url.path) = .ok database ∧ ∀ parameter : Parameter,
    SetBy parameter.Reads (parameter.get { database }) (parameter.get options)
      (lastValue parameter.key url.queryPairs)
  /-- A value that is overridden later has to be readable all the same. -/
  readable : ∀ pair ∈ url.queryPairs, ∀ error, ¬ Refused pair error

/-- The errors of a connection string. The scheme is looked at before the host, and both before
the parameters. -/
inductive Refusal (parse : UrlParser) (input : Text) : Text → Prop where
  | unparsed {error : Text} (hparse : parse (trim input) = .error error) :
      Refusal parse input ("invalid MSSQL connection URL `".toList ++ trim input ++ "`: ".toList ++ error)
  | scheme {url : Url} (hparse : parse (trim input) = .ok url)
      (hscheme : ¬ eqIgnoreAsciiCase url.scheme "mssql".toList) :
      Refusal parse input ("unsupported URL scheme `".toList ++ url.scheme ++
        "` for MSSQL; expected `mssql://`".toList)
  | host {url : Url} (hparse : parse (trim input) = .ok url)
      (hscheme : eqIgnoreAsciiCase url.scheme "mssql".toList) (hhost : url.hostStr = none) :
      Refusal parse input "MSSQL connection URL is missing a host".toList
  | parameter {url : Url} {host error : Text} (hparse : parse (trim input) = .ok url)
      (hscheme : eqIgnoreAsciiCase url.scheme "mssql".toList) (hhost : url.hostStr = some host)
      (h : FirstRefusal Refused url.queryPairs error) : Refusal parse input error

theorem Url.StandsFor.unique {url : Url} {options options' : MssqlConnectOptions} (h : url.StandsFor options)
    (h' : url.StandsFor options') : options = options' := by
  have hhost : options.host = options'.host := Option.some.inj (h.host.symm.trans h'.host)
  have hport : options.port = options'.port := h.port.trans h'.port.symm
  have husername : options.username = options'.username := Except.ok.inj (h.username.symm.trans h'.username)
  have hpassword : options.password = options'.password := Except.ok.inj (h.password.symm.trans h'.password)
  apply MssqlConnectOptions.eq_of_settings
  · rw [MssqlConnectOptions.login, hhost, hport, husername, hpassword]
    rfl
  · intro parameter
    obtain ⟨database, hdatabase, hset⟩ := h.settings
    obtain ⟨database', hdatabase', hset'⟩ := h'.settings
    cases Except.ok.inj (hdatabase.symm.trans hdatabase')
    refine (hset parameter).unique ?_ (hset' parameter)
    intro value a b
    exact parameter.reads_unique

section Outcomes
variable {parse : UrlParser} {input : Text} {url : Url}

/-- What the query makes of the options that the other parts give. -/
theorem optionsOf_ok {host database : Text} {read : MssqlConnectOptions}
    (h : optionsOf url host database = .ok read) :
    read.host = host ∧ read.port = url.port.getD 1433 ∧ ∀ parameter : Parameter,
      SetBy parameter.Reads (parameter.get { database }) (parameter.get read)
        (lastValue parameter.key url.queryPairs) := by
  have hlogin := foldlM_kept applyParameter_login h
  simp only [MssqlConnectOptions.login, Prod.mk.injEq] at hlogin
  refine ⟨hlogin.1, hlogin.2.1, fun parameter => ?_⟩
  have hset : SetBy parameter.Reads _ (parameter.get read) _ :=
    foldlM_setting applyParameter_sets applyParameter_keeps h
  cases parameter <;> exact hset

theorem standsFor_of_fromStr {options : MssqlConnectOptions}
    (h : MssqlConnectOptions.fromStr parse input = .ok (.ok options)) :
    ∃ url, parse (trim input) = .ok url ∧ url.StandsFor options := by
  cases hparse : parse (trim input) with
  | error e =>
    rw [fromStr_unparsed hparse] at h
    cases h
  | ok url =>
    by_cases hscheme : eqIgnoreAsciiCase url.scheme "mssql".toList
    · cases hhost : url.hostStr with
      | none =>
        rw [fromStr_without_host hparse hscheme hhost] at h
        cases h
      | some host =>
        obtain ⟨username, password, database, husername, hpassword, hdatabase, hrun⟩ :=
          fromStr_with_host hparse hscheme hhost
        rw [hrun] at h
        obtain ⟨read, hread, rfl⟩ := map_eq_ok.mp (Except.ok.inj h)
        obtain ⟨rfl, hport, hsettings⟩ := optionsOf_ok hread
        refine ⟨url, rfl, hscheme, hhost, hport, husername, hpassword, ⟨database, hdatabase, fun parameter => ?_⟩,
          (foldlM_ok_iff applyParameter_error).mp ⟨read, hread⟩⟩
        have hset := hsettings parameter
        cases parameter <;> exact hset
    · rw [fromStr_other_scheme hparse hscheme] at h
      cases h

theorem Url.StandsFor.fromStr_eq {options : MssqlConnectOptions} (hparse : parse (trim input) = .ok url)
    (h : url.StandsFor options) : MssqlConnectOptions.fromStr parse input = .ok (.ok options) := by
  obtain ⟨username, password, database, -, -, -, hrun⟩ := fromStr_with_host hparse h.scheme h.host
  obtain ⟨read, hread⟩ : ∃ read, optionsOf url options.host database = .ok read :=
    (foldlM_ok_iff applyParameter_error).mpr h.readable
  rw [hread] at hrun
  -- what is read stands for the URL too, and it stands for one value only
  obtain ⟨url', hparse', hread'⟩ := standsFor_of_fromStr hrun
  cases Except.ok.inj (hparse.symm.trans hparse')
  cases h.unique hread'
  exact hrun

theorem fromStr_refused {error : Text} :
    MssqlConnectOptions.fromStr parse input = .ok (.error error) ↔ Refusal parse input error := by
  constructor
  · intro h
    cases hparse : parse (trim input) with
    | error e =>
      rw [fromStr_unparsed hparse] at h
      cases h
      exact .unparsed hparse
    | ok url =>
      by_cases hscheme : eqIgnoreAsciiCase url.scheme "mssql".toList
      · cases hhost : url.hostStr with
        | none =>
          rw [fromStr_without_host hparse hscheme hhost] at h
          cases h
          exact .host hparse hscheme hhost
        | some host =>
          obtain ⟨username, password, database, -, -, -, hrun⟩ := fromStr_with_host hparse hscheme hhost
          rw [hrun] at h
          have hfold := map_eq_error.mp (Except.ok.inj h)
          exact .parameter hparse hscheme hhost ((foldlM_error_iff applyParameter_error).mp hfold)
      · rw [fromStr_other_scheme hparse hscheme] at h
        cases h
        exact .scheme hparse hscheme
  · intro h
    cases h with
    | unparsed hparse => exact fromStr_unparsed hparse
    | scheme hparse hscheme => exact fromStr_other_scheme hparse hscheme
    | host hparse hscheme hhost => exact fromStr_without_host hparse hscheme hhost
    | @parameter url host _ hparse hscheme hhost hfirst =>
      obtain ⟨username, password, database, -, -, -, hrun⟩ := fromStr_with_host hparse hscheme hhost
      have hfold : optionsOf url host database = .error error := (foldlM_error_iff applyParameter_error).mpr hfirst
      exact hrun.trans (congrArg Except.ok (map_eq_error.mpr hfold))

theorem fromStr_total (parse : UrlParser) (input : Text) :
    ∃ outcome, MssqlConnectOptions.fromStr parse input = .ok outcome := by
  cases hparse : parse (trim input) with
  | error e => exact ⟨_, fromStr_unparsed hparse⟩
  | ok url =>
    by_cases hscheme : eqIgnoreAsciiCase url.scheme "mssql".toList
    · cases hhost : url.hostStr with
      | none => exact ⟨_, fromStr_without_host hparse hscheme hhost⟩
      | some host =>
        obtain ⟨username, password, database, -, -, -, hrun⟩ := fromStr_with_host hparse hscheme hhost
        exact ⟨_, hrun⟩
    · exact ⟨_, fromStr_other_scheme hparse hscheme⟩

end Outcomes

/-- Every connection string is read or refused. It is read as the one value that its URL stands
for, exactly when there is such a value, and refused with the text that names the first fault. -/
theorem fromStr_outcomes (parse : UrlParser) (input : Text) :
    (∃ outcome, MssqlConnectOptions.fromStr parse input = .ok outcome) ∧
      (∀ options, MssqlConnectOptions.fromStr parse input = .ok (.ok options) ↔
        ∃ url, parse (trim input) = .ok url ∧ url.StandsFor options) ∧
      ∀ error, MssqlConnectOptions.fromStr parse input = .ok (.error error) ↔ Refusal parse input error := by
  refine ⟨fromStr_total parse input, fun options => ⟨standsFor_of_fromStr, ?_⟩, fun error => fromStr_refused⟩
  rintro ⟨url, hparse, h⟩
  exact h.fromStr_eq hparse

/-- A mode that cannot be read is an error, although a later one would take its place. -/
example : [("encrypt".toList, "maybe".toList), ("encrypt".toList, "strict".toList)].foldlM applyParameter {} =
    .error "`encrypt` must be one of `on`, `required`, `strict` or `off`, got `maybe`".toList := by
  rfl

end SqlxMssql
