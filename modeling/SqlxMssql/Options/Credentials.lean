import SqlxMssql.Options.ConnectOptions
import SqlxMssql.Options.EscapeLaws

/-! # Credentials in a connection string

What the user name and the password of a URL have to do with the options that it is read
as, and with the error that it is refused with.
-/
namespace SqlxMssql
open Loops Utf8 PercentEscapes

namespace MssqlConnectOptions

def withCredentials (self : MssqlConnectOptions) (username password : Text) : MssqlConnectOptions :=
  { self with username, password }

end MssqlConnectOptions

section Parameters

theorem map_eq_ok {α β : Type} {f : α → β} {parsed : Except Text α} {b : β} :
    parsed.map f = .ok b ↔ ∃ a, parsed = .ok a ∧ f a = b := by
  cases parsed with
  | error e => exact iff_of_false nofun nofun
  | ok a => simp [Except.map]

theorem map_eq_error {α β : Type} {f : α → β} {parsed : Except Text α} {e : Text} :
    parsed.map f = .error e ↔ parsed = .error e := by
  cases parsed with
  | error e' => simp [Except.map]
  | ok a => exact iff_of_false nofun nofun

theorem map_ok_comm {α : Type} (parsed : Except Text α) (set set' : α → MssqlConnectOptions) {username password : Text}
    (h : ∀ a, set' a = (set a).withCredentials username password) :
    parsed.map set' = (parsed.map set).map (·.withCredentials username password) := by
  cases parsed with
  | error e => rfl
  | ok a => exact congrArg Except.ok (h a)

/-- No parameter reads the credentials or sets them. -/
theorem applyParameter_withCredentials (options : MssqlConnectOptions) (parameter : Text × Text)
    (username password : Text) : applyParameter (options.withCredentials username password) parameter =
      (applyParameter options parameter).map (·.withCredentials username password) := by
  obtain ⟨key, value⟩ := parameter
  unfold applyParameter
  dsimp only
  split
  · rfl
  · exact map_ok_comm _ _ _ fun _ => rfl
  · exact map_ok_comm _ _ _ fun _ => rfl
  · rfl
  · rfl
  · rfl
  · split <;> rfl
  · rfl

theorem foldlM_withCredentials (pairs : List (Text × Text)) (options : MssqlConnectOptions)
    (username password : Text) : pairs.foldlM applyParameter (options.withCredentials username password) =
      (pairs.foldlM applyParameter options).map (·.withCredentials username password) := by
  induction pairs generalizing options with
  | nil => rfl
  | cons pair pairs ih =>
    rw [List.foldlM_cons, List.foldlM_cons, applyParameter_withCredentials]
    cases applyParameter options pair with
    | error e => rfl
    | ok next => exact ih next

end Parameters

/-- The options of a URL before its credentials are decoded into them. -/
def optionsOf (url : Url) (host database : Text) : Except Text MssqlConnectOptions :=
  url.queryPairs.foldlM applyParameter { host, port := url.port.getD 1433, database }

section Reading
variable {parse : UrlParser} {input : Text} {url : Url}

theorem percentDecode_total (s : Text) : ∃ t, percentDecode s = .ok t := ⟨_, percentDecode_eq s⟩

theorem fromStr_with_host (hparse : parse (trim input) = .ok url) (hscheme : eqIgnoreAsciiCase url.scheme "mssql".toList)
    {host : Text} (hhost : url.hostStr = some host) :
    ∃ username password database, percentDecode url.username = .ok username ∧
      percentDecode (url.password.getD []) = .ok password ∧ percentDecode (trimSlashes url.path) = .ok database ∧
      MssqlConnectOptions.fromStr parse input =
        .ok ((optionsOf url host database).map (·.withCredentials username password)) := by
  obtain ⟨username, husername⟩ := percentDecode_total url.username
  obtain ⟨password, hpassword⟩ := percentDecode_total (url.password.getD [])
  obtain ⟨database, hdatabase⟩ := percentDecode_total (trimSlashes url.path)
  refine ⟨username, password, database, husername, hpassword, hdatabase, ?_⟩
  simp only [MssqlConnectOptions.fromStr, hparse, hscheme, hhost, husername, hpassword, hdatabase, ↓reduceIte, ok_bind,
    pure_eq_ok, optionsOf]
  rw [← foldlM_withCredentials]
  rfl

theorem fromStr_other_scheme (hparse : parse (trim input) = .ok url)
    (hscheme : ¬ eqIgnoreAsciiCase url.scheme "mssql".toList) :
    MssqlConnectOptions.fromStr parse input = .ok (.error ("unsupported URL scheme `".toList ++ url.scheme ++
      "` for MSSQL; expected `mssql://`".toList)) := by
  simp only [MssqlConnectOptions.fromStr, hparse, if_neg hscheme, pure_eq_ok]

theorem fromStr_without_host (hparse : parse (trim input) = .ok url)
    (hscheme : eqIgnoreAsciiCase url.scheme "mssql".toList) (hhost : url.hostStr = none) :
    MssqlConnectOptions.fromStr parse input = .ok (.error "MSSQL connection URL is missing a host".toList) := by
  simp only [MssqlConnectOptions.fromStr, hparse, hscheme, hhost, ↓reduceIte, pure_eq_ok]

theorem fromStr_unparsed {error : Text} (hparse : parse (trim input) = .error error) :
    MssqlConnectOptions.fromStr parse input =
      .ok (.error ("invalid MSSQL connection URL `".toList ++ trim input ++ "`: ".toList ++ error)) := by
  simp only [MssqlConnectOptions.fromStr, hparse, pure_eq_ok]

/-- The options hold the decoded parts of the URL. -/
theorem fromStr_credentials (hparse : parse (trim input) = .ok url) {options : MssqlConnectOptions}
    (h : MssqlConnectOptions.fromStr parse input = .ok (.ok options)) :
    percentDecode url.username = .ok options.username ∧
      percentDecode (url.password.getD []) = .ok options.password ∧
      (lastDatabase url.queryPairs = none → percentDecode (trimSlashes url.path) = .ok options.database) := by
  by_cases hscheme : eqIgnoreAsciiCase url.scheme "mssql".toList
  · cases hhost : url.hostStr with
    | none =>
      rw [fromStr_without_host hparse hscheme hhost] at h
      cases h
    | some host =>
      obtain ⟨username, password, database, husername, hpassword, hdatabase, hrun⟩ :=
        fromStr_with_host hparse hscheme hhost
      rw [hrun] at h
      obtain ⟨read, hread, rfl⟩ := map_eq_ok.mp (Except.ok.inj h)
      refine ⟨husername, hpassword, fun hquery => ?_⟩
      have hkept : read.database = database := by
        rw [foldlM_applyParameter_database hread, hquery]
        rfl
      rw [hdatabase, ← hkept]
      rfl
  · rw [fromStr_other_scheme hparse hscheme] at h
    cases h

end Reading

/-- Every encoding of a text is decoded into it, and so are the credentials and the database
of every connection string that is accepted. -/
theorem percent_encoding_undone {s e : Text} (h : PercentEncodes s e) :
    percentDecode e = .ok s ∧ ∀ (parse : UrlParser) (input : Text) (url : Url) (options : MssqlConnectOptions),
      parse (trim input) = .ok url → MssqlConnectOptions.fromStr parse input = .ok (.ok options) →
        (url.username = e → options.username = s) ∧ (url.password = some e → options.password = s) ∧
          (trimSlashes url.path = e → lastDatabase url.queryPairs = none → options.database = s) := by
  have hdecode := percentDecode_of_encodes h
  refine ⟨hdecode, fun parse input url options hparse hread => ?_⟩
  obtain ⟨husername, hpassword, hdatabase⟩ := fromStr_credentials hparse hread
  have hsame {t : Text} (ht : percentDecode e = .ok t) : t = s := Except.ok.inj (ht.symm.trans hdecode)
  refine ⟨fun heq => hsame (heq ▸ husername), fun heq => ?_, fun heq hquery => hsame (heq ▸ hdatabase hquery)⟩
  rw [heq] at hpassword
  exact hsame hpassword

/-- The text `ß%` between a kept character and the end, with digits in both cases. -/
theorem percent_encoding_undone_sample :
    PercentEncodes "aß%".toList "a%C3%9f%25".toList ∧ percentDecode "a%C3%9f%25".toList = .ok "aß%".toList := by
  have hsharp : EscapesOf (String.utf8EncodeChar 'ß') "%C3%9f".toList :=
    show EscapesOf [0xC3, 0x9F] _ from .cons (by decide) (by decide) (.cons (by decide) (by decide) .nil)
  have hpercent : EscapesOf (String.utf8EncodeChar '%') "%25".toList :=
    show EscapesOf [0x25] _ from .cons (by decide) (by decide) .nil
  have h : PercentEncodes "aß%".toList "a%C3%9f%25".toList :=
    .keep (by decide) (.escape hsharp (.escape hpercent .nil))
  exact ⟨h, (percent_encoding_undone h).1⟩

section Rejections

/-- A connection string with a password. -/
def withPassword (before after password : Text) : Text := before ++ ':' :: (password ++ '@' :: after)

/-- What the parser gives for two strings differs in the password at most. -/
def SameButPassword : Except Text Url → Except Text Url → Prop
  | .error error, .error error' => error = error'
  | .ok url, .ok url' => { url with password := none } = { url' with password := none }
  | _, _ => False

/-- When both strings are rejected for the same reason, the texts of the errors are the same. -/
def PasswordHidden (parse : UrlParser) (input input' : Text) : Prop :=
  SameButPassword (parse (trim input)) (parse (trim input')) → ∀ error error',
    MssqlConnectOptions.fromStr parse input = .ok (.error error) →
    MssqlConnectOptions.fromStr parse input' = .ok (.error error') → error = error'

/-- Behind the parser no error is made from the password. -/
theorem passwordHidden_of_ok {parse : UrlParser} {input input' : Text} {url : Url}
    (hparse : parse (trim input) = .ok url) : PasswordHidden parse input input' := by
  intro hsame error error' h h'
  cases hparse' : parse (trim input') with
  | error e =>
    rw [hparse, hparse'] at hsame
    exact hsame.elim
  | ok url' =>
    rw [hparse, hparse'] at hsame
    obtain ⟨scheme, username, password, hostStr, port, path, queryPairs⟩ := url
    obtain ⟨scheme', username', password', hostStr', port', path', queryPairs'⟩ := url'
    simp only [SameButPassword, Url.mk.injEq, true_and] at hsame
    obtain ⟨rfl, rfl, rfl, rfl, rfl, rfl⟩ := hsame
    by_cases hscheme : eqIgnoreAsciiCase scheme "mssql".toList
    · cases hostStr with
      | none =>
        rw [fromStr_without_host hparse hscheme rfl] at h
        rw [fromStr_without_host hparse' hscheme rfl] at h'
        cases h
        cases h'
        rfl
      | some host =>
        obtain ⟨username, password, database, -, -, hdatabase, hrun⟩ := fromStr_with_host hparse hscheme rfl
        obtain ⟨username', password', database', -, -, hdatabase', hrun'⟩ := fromStr_with_host hparse' hscheme rfl
        rw [hdatabase] at hdatabase'
        cases hdatabase'
        rw [hrun] at h
        rw [hrun'] at h'
        have hfold := map_eq_error.mp (Except.ok.inj h)
        have hfold' := map_eq_error.mp (Except.ok.inj h')
        exact Except.error.inj (hfold.symm.trans hfold')
    · rw [fromStr_other_scheme hparse hscheme] at h
      rw [fromStr_other_scheme hparse' hscheme] at h'
      cases h
      cases h'
      rfl

theorem trim_withPassword (before after password : Text) :
    trim (withPassword before after password) = trimStart before ++ ':' :: (password ++ '@' :: trimEnd after) :=
  trim_between (by decide) (by decide) before password after

/-- The text of a syntax error holds the whole string, with the password. -/
theorem passwordHidden_iff (parse : UrlParser) (before after password password' : Text) :
    PasswordHidden parse (withPassword before after password) (withPassword before after password') ↔
      password = password' ∨
        ¬ ∃ error, parse (trim (withPassword before after password)) = .error error ∧
          parse (trim (withPassword before after password')) = .error error := by
  constructor
  · intro h
    by_contra hnot
    obtain ⟨hne, hboth⟩ := not_or.mp hnot
    obtain ⟨error, herror, herror'⟩ := not_not.mp hboth
    have hsame : SameButPassword (parse (trim (withPassword before after password)))
        (parse (trim (withPassword before after password'))) := by
      rw [herror, herror']
      rfl
    have htext := h hsame _ _ (fromStr_unparsed herror) (fromStr_unparsed herror')
    rw [trim_withPassword, trim_withPassword] at htext
    simp only [List.append_cancel_left_eq, List.append_cancel_right_eq, List.cons.injEq, true_and] at htext
    exact hne htext
  · rintro (rfl | hnot) hsame error error' h h'
    · exact Except.error.inj (Except.ok.inj (h.symm.trans h'))
    · cases hparse : parse (trim (withPassword before after password)) with
      | ok url => exact passwordHidden_of_ok hparse hsame error error' h h'
      | error e =>
        cases hparse' : parse (trim (withPassword before after password')) with
        | ok url =>
          rw [hparse, hparse'] at hsame
          exact hsame.elim
        | error e' =>
          rw [hparse, hparse'] at hsame
          cases hsame
          exact absurd ⟨e, hparse, hparse'⟩ hnot

/-- A parser that rejects a bad port, with a text that holds nothing of its input. -/
def badPort : UrlParser := fun _ => .error "invalid port number".toList

theorem rejected_url_shows_password :
    ¬ PasswordHidden badPort (withPassword "mssql://sa".toList "localhost:port/master".toList "hunter2".toList)
      (withPassword "mssql://sa".toList "localhost:port/master".toList "secret".toList) := by
  intro h
  have htext := h rfl _ _ (fromStr_unparsed rfl) (fromStr_unparsed rfl)
  exact absurd htext (by decide)

end Rejections

end SqlxMssql
