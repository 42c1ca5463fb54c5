import SqlxMssql.Foundations.Assignments
import SqlxMssql.Options.PercentEscapes

/-! # Connect options

The options that a connection string stands for. The URL parser is a parameter; the driver
decodes the credentials and the path again, and the query parameters as the parser hands
them over.
-/
namespace SqlxMssql
open Loops Utf8 PercentEscapes Assignments

/-- The parts that the driver reads of a parsed URL. -/
structure Url where
  scheme : Text
  username : Text
  password : Option Text
  hostStr : Option Text
  port : Option UInt16
  path : Text
  queryPairs : List (Text × Text)
  deriving DecidableEq, Repr

/-- `Url::parse`, with the text of its error. -/
abbrev UrlParser : Type := Text → Except Text Url

inductive MssqlEncryption where
  | preferOff
  | on
  | required
  | strict
  deriving DecidableEq, Repr

structure MssqlConnectOptions where
  host : Text := "localhost".toList
  port : UInt16 := 1433
  username : Text := []
  password : Text := []
  database : Text := []
  encryption : MssqlEncryption := .on
  trustServerCertificate : Bool := false
  serverCertificate : Option Text := none
  hostNameInCert : Option Text := none
  applicationName : Option Text := none
  /-- In seconds. -/
  connectTimeout : Option ℕ := none
  deriving DecidableEq, Repr

/-- The settings of the client; `none` keeps the client's own default. -/
structure ClientContext where
  userName : Text
  password : Text
  database : Text
  mode : MssqlEncryption
  trustServerCertificate : Bool
  hostNameInCert : Option Text
  serverCertificate : Option Text
  applicationName : Option Text
  connectTimeout : Option UInt32
  deriving DecidableEq, Repr

namespace MssqlConnectOptions
variable (self : MssqlConnectOptions)

def datasource : Text := "tcp:".toList ++ self.host ++ ',' :: decimal self.port.toNat

def clientContext : ClientContext where
  userName := self.username
  password := self.password
  database := self.database
  mode := self.encryption
  trustServerCertificate := self.trustServerCertificate
  hostNameInCert := self.hostNameInCert
  serverCertificate := self.serverCertificate
  applicationName := self.applicationName
  -- `u32::try_from(timeout.as_secs()).unwrap_or(u32::MAX)`
  connectTimeout := self.connectTimeout.map fun seconds => UInt32.ofNat (min seconds 4294967295)

def withDatabase (database : Text) : MssqlConnectOptions := { self with database }

end MssqlConnectOptions

def parseBool (key value : Text) : Except Text Bool :=
  match String.ofList (toAsciiLowercase value) with
  | "true" | "yes" | "1" => .ok true
  | "false" | "no" | "0" => .ok false
  | other => .error ('`' :: key ++ "` must be a boolean, got `".toList ++ other.toList ++ ['`'])

/-- The boolean spellings are still accepted. -/
def parseEncryption (key value : Text) : Except Text MssqlEncryption :=
  match String.ofList (toAsciiLowercase value) with
  | "on" => .ok .on
  | "required" => .ok .required
  | "strict" => .ok .strict
  | "off" | "prefer-off" | "prefer_off" => .ok .preferOff
  | _ =>
    match parseBool key value with
    | .ok enabled => .ok (if enabled then .on else .preferOff)
    | .error _ => .error ('`' :: key ++
        "` must be one of `on`, `required`, `strict` or `off`, got `".toList ++ value ++ ['`'])

/-- One query parameter. Unknown ones are ignored. -/
def applyParameter (options : MssqlConnectOptions) :
    Text × Text → Except Text MssqlConnectOptions
  | (key, value) =>
    match String.ofList key with
    | "database" => .ok { options with database := value }
    | "encrypt" => (parseEncryption key value).map fun mode => { options with encryption := mode }
    | "trust_certificate" =>
      (parseBool key value).map fun enabled => { options with trustServerCertificate := enabled }
    | "server_certificate" => .ok { options with serverCertificate := some value }
    | "host_name_in_cert" => .ok { options with hostNameInCert := some value }
    | "application_name" => .ok { options with applicationName := some value }
    | "connect_timeout" =>
      match parseUnsigned 64 value with
      | some seconds => .ok { options with connectTimeout := some seconds }
      | none => .error ("`connect_timeout` must be a whole number of seconds, got `".toList ++ value ++ ['`'])
    | _ => .ok options

/-- `path.trim_start_matches('/')` -/
def trimSlashes (path : Text) : Text := path.dropWhile (· = '/')

/-- Every error of `from_str` is a configuration error with this text. -/
def MssqlConnectOptions.fromStr (parse : UrlParser) (input : Text) :
    Run (Except Text MssqlConnectOptions) :=
  let trimmed := trim input
  match parse trimmed with
  | .error e =>
    return .error ("invalid MSSQL connection URL `".toList ++ trimmed ++ "`: ".toList ++ e)
  | .ok url =>
    if eqIgnoreAsciiCase url.scheme "mssql".toList then
      match url.hostStr with
      | none => return .error "MSSQL connection URL is missing a host".toList
      | some host => do
        let username ← percentDecode url.username
        let password ← percentDecode (url.password.getD [])
        let database ← percentDecode (trimSlashes url.path)
        return url.queryPairs.foldlM applyParameter
          { host, port := url.port.getD 1433, username, password, database }
    else
      return .error ("unsupported URL scheme `".toList ++ url.scheme ++
        "` for MSSQL; expected `mssql://`".toList)

def lastDatabase (queryPairs : List (Text × Text)) : Option Text :=
  lastValue "database".toList queryPairs

section Database

theorem database_of_map {α : Type} {options result : MssqlConnectOptions} {parsed : Except Text α}
    {set : α → MssqlConnectOptions} (h : parsed.map set = .ok result)
    (hset : ∀ a, (set a).database = options.database) : result.database = options.database := by
  cases parsed with
  | error e => cases h
  | ok a =>
    cases h
    exact hset a

/-- Only its own parameter sets the database. -/
theorem applyParameter_other {options result : MssqlConnectOptions} {key value : Text}
    (hkey : String.ofList key ≠ "database") (h : applyParameter options (key, value) = .ok result) :
    result.database = options.database := by
  unfold applyParameter at h
  dsimp only at h
  split at h
  · rename_i heq
    exact absurd heq hkey
  · exact database_of_map h fun _ => rfl
  · exact database_of_map h fun _ => rfl
  · cases h
    rfl
  · cases h
    rfl
  · cases h
    rfl
  · split at h
    · cases h
      rfl
    · cases h
  · cases h
    rfl

theorem applyParameter_database {options result : MssqlConnectOptions} {key value : Text}
    (h : applyParameter options (key, value) = .ok result) :
    result.database = if key = "database".toList then value else options.database := by
  have hkey : key = "database".toList ↔ String.ofList key = "database" := by
    rw [← String.ofList_inj, String.ofList_toList]
  rw [if_congr hkey rfl rfl]
  split
  · rename_i heq
    unfold applyParameter at h
    dsimp only at h
    rw [heq] at h
    cases h
    rfl
  · rename_i hne
    exact applyParameter_other hne h

theorem foldlM_applyParameter_database {pairs : List (Text × Text)} {options result : MssqlConnectOptions}
    (h : pairs.foldlM applyParameter options = .ok result) :
    result.database = (lastDatabase pairs).getD options.database := by
  have hset : SetBy (fun value database => database = value) options.database result.database
      (lastValue "database".toList pairs) := by
    refine foldlM_setting ?_ ?_ h
    · intro options next value hnext
      rw [applyParameter_database hnext, if_pos rfl]
    · intro options next key value hkey hnext
      rw [applyParameter_database hnext, if_neg hkey]
  exact hset.eq_getD

end Database

end SqlxMssql
