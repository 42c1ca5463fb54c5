import SqlxMssql.Foundations.SqlTokens
import SqlxMssql.Migrate.Databases

/-! # The statements of the migrator

The statements that keep the migrations table splice names, texts and bytes into SQL. What
the server makes of them is read off their tokens.
-/
namespace SqlxMssql
open Loops Utf8 SqlTokens

/-- A migration as the migrator hands it over; the type is what `{:?}` prints of it. -/
structure Migration where
  version : Int64
  description : Text
  migrationType : Text
  sql : Text
  checksum : List UInt8
  noTx : Bool
  deriving DecidableEq, Repr

def escapeSqlString (value : Text) : Text := value.flatMap fun c => if c = '\'' then ['\'', '\''] else [c]

/-- `{byte:02X}` -/
def upperHex (byte : UInt8) : Text :=
  [(Nat.digitChar (byte.toNat / 16)).toUpper, (Nat.digitChar (byte.toNat % 16)).toUpper]

def formatHex (bytes : List UInt8) : Text := "0x".toList ++ bytes.flatMap upperHex

def splitTableName (tableName : Text) : Run (Text × Text) :=
  match find ['.'] tableName with
  | some dot => do return (← sliceTo tableName dot, ← sliceFrom tableName (dot + 1))
  | none => .ok ([], tableName)

def quotedTableName (tableName : Text) : Run Text := do
  let (schema, table) ← splitTableName tableName
  if schema.isEmpty then return '[' :: escapeSqlBracket table ++ [']']
  else return '[' :: escapeSqlBracket schema ++ "].[".toList ++ escapeSqlBracket table ++ [']']

def insertMigrationSql (tableName : Text) (migration : Migration) (recordSql : Bool) : Run Text := do
  let sqlText :=
    if recordSql then "N'".toList ++ escapeSqlString migration.sql ++ ['\''] else "N''".toList
  let quoted ← quotedTableName tableName
  return "INSERT INTO ".toList ++ quoted ++
    " (version, description, migration_type, sql, checksum, no_tx) VALUES (".toList ++
    decimalInt migration.version.toInt ++ ", N'".toList ++ escapeSqlString migration.description ++
    "', N'".toList ++ escapeSqlString migration.migrationType ++ "', ".toList ++ sqlText ++ ", ".toList ++
    formatHex migration.checksum ++ ", ".toList ++ (if migration.noTx then ['1'] else ['0']) ++ [')']

def createSchemaSql (schemaName : Text) : Text :=
  "IF NOT EXISTS (SELECT * FROM sys.schemas WHERE name = N'".toList ++ escapeSqlString schemaName ++
    "') EXEC('CREATE SCHEMA [".toList ++ escapeSqlBracket schemaName ++ "]')".toList

theorem escapeSqlBracket_eq (value : Text) : escapeSqlBracket value = escape .bracket value := by
  unfold escapeSqlBracket escape
  congr 1
  funext c
  by_cases hc : c = ']'
  · simp [hc, Quote.delimiter]
  · simp [hc, Quote.delimiter]

theorem escapeSqlString_eq (value : Text) : escapeSqlString value = escape .national value := by
  unfold escapeSqlString escape
  congr 1
  funext c
  by_cases hc : c = '\''
  · simp [hc, Quote.delimiter]
  · simp [hc, Quote.delimiter]

/-- The bytes of a `0x` literal. -/
def hexPairs : Text → Option (List UInt8)
  | [] => some []
  | [_] => none
  | high :: low :: s =>
    match PercentEscapes.hexDigit high, PercentEscapes.hexDigit low, hexPairs s with
    | some h, some l, some bytes => some (UInt8.ofNat (16 * h + l) :: bytes)
    | _, _, _ => none

def binaryLiteral : Text → Option (List UInt8)
  | '0' :: 'x' :: s => hexPairs s
  | _ => none

theorem hexPairs_upperHex (bytes : List UInt8) : hexPairs (bytes.flatMap upperHex) = some bytes := by
  have hdigit : ∀ n < 16, PercentEscapes.hexDigit (Nat.digitChar n).toUpper = some n := by decide
  induction bytes with
  | nil => rfl
  | cons byte bytes ih =>
    have hlt := byte.toNat_lt
    have hhigh := hdigit (byte.toNat / 16) (by omega)
    have hlow := hdigit (byte.toNat % 16) (by omega)
    have hbyte : UInt8.ofNat (16 * (byte.toNat / 16) + byte.toNat % 16) = byte := by
      rw [Nat.div_add_mod]
      exact UInt8.ofNat_toNat
    rw [List.flatMap_cons, upperHex, List.cons_append, List.cons_append, List.nil_append, hexPairs, hhigh, hlow, ih]
    simp only [hbyte]

theorem binaryLiteral_formatHex (bytes : List UInt8) : binaryLiteral (formatHex bytes) = some bytes :=
  hexPairs_upperHex bytes

theorem isWordChar_formatHex (bytes : List UInt8) {c : Char} (h : c ∈ formatHex bytes) :
    isWordChar c = true := by
  have hdigit : ∀ n < 16, isWordChar (Nat.digitChar n).toUpper = true := by decide
  rcases List.mem_append.mp h with h | h
  · rcases List.mem_pair.mp h with rfl | rfl
    · decide
    · decide
  · obtain ⟨byte, -, hbyte⟩ := List.mem_flatMap.mp h
    have hlt := byte.toNat_lt
    rcases List.mem_pair.mp hbyte with rfl | rfl
    · exact hdigit _ (by omega)
    · exact hdigit _ (by omega)

theorem isWordChar_of_isDigit {c : Char} (h : c.isDigit = true) : isWordChar c = true := by
  simp [isWordChar, Char.isAlphanum, h]

theorem not_isWhitespace_of_isDigit {c : Char} (h : c.isDigit = true) : c.isWhitespace = false := by
  by_contra hspace
  simp only [Char.isWhitespace, Bool.not_eq_false, Bool.or_eq_true, decide_eq_true_eq] at hspace
  rcases hspace with ((rfl | rfl) | rfl) | rfl <;> exact absurd h (by decide)

theorem reads_decimalInt (n : ℤ) : Reads .between (decimalInt n) [] (.word (decimalInt n)) := by
  obtain ⟨d, digits, hdigits⟩ : ∃ d digits, decimal n.natAbs = d :: digits :=
    List.exists_cons_of_ne_nil Nat.toDigits_ne_nil
  have hd : d.isDigit = true := isDigit_of_mem_decimal (n := n.natAbs) (by rw [hdigits]; exact List.mem_cons_self)
  have hrest (s : Text) : Reads (.word s) digits [] (.word (s ++ digits)) := by
    apply reads_word
    intro c hc
    apply isWordChar_of_isDigit
    exact isDigit_of_mem_decimal (n := n.natAbs) (by rw [hdigits]; exact List.mem_cons_of_mem d hc)
  unfold decimalInt
  rw [hdigits]
  split
  · have hsign : Reads .between ['-', d] [] (.word ['-', d]) := by
      have hminus : start '-' = ([], .minus) := by decide
      simp [Reads, scan, step, hminus, hd]
    exact hsign.append (hrest ['-', d])
  · have hfirst : Reads .between [d] [] (.word [d]) := by
      simp [Reads, scan, step, start, not_isWhitespace_of_isDigit hd, isWordChar_of_isDigit hd]
    exact hfirst.append (hrest [d])

/-- The name before the first dot, and the name behind it. -/
def splitAtDot (name : Text) : Text × Text :=
  if '.' ∈ name then (name.takeWhile (· ≠ '.'), (name.dropWhile (· ≠ '.')).tail) else ([], name)

theorem splitTableName_eq (name : Text) : splitTableName name = .ok (splitAtDot name) := by
  by_cases h : '.' ∈ name
  · obtain ⟨before, later, rfl, hbefore⟩ := List.eq_append_cons_of_mem h
    have hne : ∀ c ∈ before, decide (c ≠ '.') = true := by
      rintro c hc
      rw [decide_eq_true_eq]
      rintro rfl
      exact hbefore hc
    have hfrom : sliceFrom (before ++ '.' :: later) (String.utf8Len before + 1) = .ok later := by
      have := sliceFrom_append (before ++ ['.']) later
      rwa [List.append_assoc, String.utf8Len_append] at this
    simp only [splitTableName, find_append hbefore later, sliceTo_append, hfrom, splitAtDot, if_pos h,
      List.takeWhile_append_of_pos hne, List.dropWhile_append_of_pos hne]
    simp
  · rw [splitTableName, find_eq_none h, splitAtDot, if_neg h]

/-- The tokens of a table name that is split into schema and table. -/
def tableTokens : Text × Text → List Token
  | ([], table) => [.quoted .bracket table]
  | (schema, table) => [.quoted .bracket schema, .symbol '.', .quoted .bracket table]

/-- The tokens of the record of a migration. -/
def recordTokens (tableName : Text) (migration : Migration) (recordSql : Bool) (checksum : Text) : List Token :=
  ([.word "INSERT".toList, .word "INTO".toList] : List Token) ++ tableTokens (splitAtDot tableName) ++
    ([.symbol '(', .word "version".toList, .symbol ',', .word "description".toList, .symbol ',',
      .word "migration_type".toList, .symbol ',', .word "sql".toList, .symbol ',', .word "checksum".toList,
      .symbol ',', .word "no_tx".toList, .symbol ')', .word "VALUES".toList, .symbol '(',
      .word (decimalInt migration.version.toInt), .symbol ',',
      .quoted .national migration.description, .symbol ',',
      .quoted .national migration.migrationType, .symbol ',',
      .quoted .national (if recordSql then migration.sql else []), .symbol ',',
      .word checksum, .symbol ',', .word (if migration.noTx then ['1'] else ['0']), .symbol ')'] : List Token)

theorem reads_tableName (tableName : Text) : ∃ quoted schemaTokens table,
    quotedTableName tableName = .ok quoted ∧ Reads .between quoted schemaTokens (.closing .bracket table) ∧
      schemaTokens ++ [.quoted .bracket table] = tableTokens (splitAtDot tableName) := by
  rcases hsplit : splitAtDot tableName with ⟨schema, table⟩
  have hopen : Reads .between ['['] [] (.inside .bracket []) := by decide
  cases schema with
  | nil =>
    refine ⟨_, [], table, ?_, hopen.append (reads_quoted .bracket table), rfl⟩
    rw [quotedTableName, splitTableName_eq, hsplit, ← escapeSqlBracket_eq]
    rfl
  | cons c schema =>
    have hdot : Reads (.inside .bracket (c :: schema)) "].[".toList
        [.quoted .bracket (c :: schema), .symbol '.'] (.inside .bracket []) := rfl
    have hschema := (hopen.append (reads_escape .bracket [] (c :: schema))).append hdot
    refine ⟨_, _, table, ?_, hschema.append (reads_quoted .bracket table), rfl⟩
    rw [quotedTableName, splitTableName_eq, hsplit, ← escapeSqlBracket_eq, ← escapeSqlBracket_eq]
    change Except.ok _ = Except.ok _
    simp [Quote.delimiter]

theorem reads_formatHex (bytes : List UInt8) :
    Reads .between (formatHex bytes) [] (.word (formatHex bytes)) := by
  have hzero : Reads .between ['0'] [] (.word ['0']) := by decide
  refine hzero.append (reads_word (w := 'x' :: bytes.flatMap upperHex) fun c hc => ?_)
  exact isWordChar_formatHex bytes (List.mem_cons_of_mem '0' hc)

/-- The content of a national string, from behind its opening delimiter on. -/
theorem reads_national (content : Text) : Reads (.inside .national []) (escapeSqlString content) []
    (.inside .national content) := by
  rw [escapeSqlString_eq]
  exact reads_escape .national [] content

theorem reads_sqlText (sql : Text) (recordSql : Bool) : Reads .between
    (if recordSql then "N'".toList ++ escapeSqlString sql ++ ['\''] else "N''".toList) []
    (.closing .national (if recordSql then sql else [])) := by
  cases recordSql with
  | false => rfl
  | true =>
    have hopen : Reads .between "N'".toList [] (.inside .national []) := by decide
    have hclose : Reads (.inside .national sql) ['\''] [] (.closing .national sql) := rfl
    exact (hopen.append (reads_national sql)).append hclose

theorem reads_noTx (noTx : Bool) :
    Reads .between (if noTx then ['1'] else ['0']) [] (.word (if noTx then ['1'] else ['0'])) := by
  cases noTx with
  | false => decide
  | true => decide

/-- The values of a record, from behind the opening parenthesis on. -/
theorem reads_values (migration : Migration) (recordSql : Bool) : Reads .between
    (decimalInt migration.version.toInt ++ ", N'".toList ++ escapeSqlString migration.description ++
      "', N'".toList ++ escapeSqlString migration.migrationType ++ "', ".toList ++
      (if recordSql then "N'".toList ++ escapeSqlString migration.sql ++ ['\''] else "N''".toList) ++
      ", ".toList ++ formatHex migration.checksum ++ ", ".toList ++
      (if migration.noTx then ['1'] else ['0']) ++ [')'])
    [.word (decimalInt migration.version.toInt), .symbol ',',
      .quoted .national migration.description, .symbol ',',
      .quoted .national migration.migrationType, .symbol ',',
      .quoted .national (if recordSql then migration.sql else []), .symbol ',',
      .word (formatHex migration.checksum), .symbol ',',
      .word (if migration.noTx then ['1'] else ['0']), .symbol ')'] .between := by
  have hversion (w : Text) : Reads (.word w) ", N'".toList [.word w, .symbol ','] (.inside .national []) :=
    .behind_word (by decide) (by decide) (by decide)
  have hdescription (content : Text) : Reads (.inside .national content) "', N'".toList
      [.quoted .national content, .symbol ','] (.inside .national []) := rfl
  have htype (content : Text) : Reads (.inside .national content) "', ".toList
      [.quoted .national content, .symbol ','] .between := rfl
  have hsql (content : Text) : Reads (.closing .national content) ", ".toList
      [.quoted .national content, .symbol ','] .between := rfl
  have hchecksum (w : Text) : Reads (.word w) ", ".toList [.word w, .symbol ','] .between :=
    .behind_word (by decide) (by decide) (by decide)
  have hclose (w : Text) : Reads (.word w) [')'] [.word w, .symbol ')'] .between :=
    .behind_word (by decide) (by decide) (by decide)
  exact ((((((((((reads_decimalInt migration.version.toInt).append (hversion _)).append
    (reads_national migration.description)).append (hdescription _)).append
    (reads_national migration.migrationType)).append (htype _)).append
    (reads_sqlText migration.sql recordSql)).append (hsql _)).append
    (reads_formatHex migration.checksum)).append (hchecksum _)).append (reads_noTx migration.noTx)
    |>.append (hclose _)

/-- The record of a migration has the same tokens whatever its fields hold, and each field
is read back from its own token. -/
theorem insertMigrationSql_lexes (tableName : Text) (migration : Migration) (recordSql : Bool) :
    ∃ sql checksum, insertMigrationSql tableName migration recordSql = .ok sql ∧
      lex sql = some (recordTokens tableName migration recordSql checksum) ∧
      binaryLiteral checksum = some migration.checksum := by
  obtain ⟨quoted, schemaTokens, table, hquoted, htable, htokens⟩ := reads_tableName tableName
  have hinsert : Reads .between "INSERT INTO ".toList [.word "INSERT".toList, .word "INTO".toList] .between := by
    decide
  have hcolumns : Reads (.closing .bracket table)
      " (version, description, migration_type, sql, checksum, no_tx) VALUES (".toList
      [.quoted .bracket table, .symbol '(', .word "version".toList, .symbol ',', .word "description".toList,
        .symbol ',', .word "migration_type".toList, .symbol ',', .word "sql".toList, .symbol ',',
        .word "checksum".toList, .symbol ',', .word "no_tx".toList, .symbol ')', .word "VALUES".toList,
        .symbol '('] .between := .behind_quoted (by decide) (by decide)
  have hreads := ((hinsert.append htable).append hcolumns).append (reads_values migration recordSql)
  refine ⟨_, formatHex migration.checksum, ?_, (hreads.lex rfl).trans ?_,
    binaryLiteral_formatHex migration.checksum⟩
  · rw [insertMigrationSql, hquoted]
    change Except.ok _ = Except.ok _
    simp only [List.append_assoc]
  · rw [recordTokens, ← htokens]
    simp

/-- The tokens of the test whether a schema exists. -/
def schemaTest (schemaName : Text) : List Token :=
  [.word "IF".toList, .word "NOT".toList, .word "EXISTS".toList, .symbol '(', .word "SELECT".toList,
    .symbol '*', .word "FROM".toList, .word "sys".toList, .symbol '.', .word "schemas".toList,
    .word "WHERE".toList, .word "name".toList, .symbol '=', .quoted .national schemaName, .symbol ')']

/-- The statement tests for the name and executes one string, which creates the schema of
the name. -/
def CreatesOnly (schemaName : Text) : Prop := ∃ inner,
  lex (createSchemaSql schemaName) =
      some (schemaTest schemaName ++ [.word "EXEC".toList, .symbol '(', .quoted .plain inner, .symbol ')']) ∧
    lex inner = some [.word "CREATE".toList, .word "SCHEMA".toList, .quoted .bracket schemaName]

theorem escape_plain {s : Text} (h : '\'' ∉ s) : escape .plain s = s := by
  induction s with
  | nil => rfl
  | cons c s ih =>
    have hc : ¬ c = '\'' := fun hc => h (hc ▸ List.mem_cons_self)
    have hrest := ih fun hmem => h (List.mem_cons_of_mem c hmem)
    simp only [escape, List.flatMap_cons] at hrest ⊢
    rw [hrest, if_neg (show ¬ c = Quote.plain.delimiter from hc)]
    rfl

theorem count_escapeSqlString (s : Text) : (escapeSqlString s).count '\'' = 2 * s.count '\'' := by
  induction s with
  | nil => rfl
  | cons c s ih =>
    simp only [escapeSqlString, List.flatMap_cons, List.count_append] at ih ⊢
    by_cases hc : c = '\''
    · simp [hc, ih]
      omega
    · simp [hc, ih]

theorem count_escapeSqlBracket (s : Text) : (escapeSqlBracket s).count '\'' = s.count '\'' := by
  induction s with
  | nil => rfl
  | cons c s ih =>
    rw [escapeSqlBracket_cons, List.count_append, ih]
    by_cases hc : c = ']'
    · simp [hc]
    · simp [hc, List.count_cons, Nat.add_comm]

theorem count_spliced (test exec close s : Text) :
    (test ++ escapeSqlString s ++ exec ++ escapeSqlBracket s ++ close).count '\'' =
      test.count '\'' + exec.count '\'' + close.count '\'' + 3 * s.count '\'' := by
  simp only [List.count_append, count_escapeSqlString, count_escapeSqlBracket]
  omega

theorem count_createSchemaSql (schemaName : Text) :
    (createSchemaSql schemaName).count '\'' = 1 + 2 + 1 + 3 * schemaName.count '\'' :=
  count_spliced _ _ _ schemaName

/-- Two levels of quotes would need every quote of the name four times, and it is written
three times. -/
theorem CreatesOnly.no_quote {schemaName : Text} (h : CreatesOnly schemaName) : '\'' ∉ schemaName := by
  obtain ⟨inner, houter, hinner⟩ := h
  have houter' := strokes_le_of_lex houter
  have hinner' := strokes_le_of_lex hinner
  rw [count_createSchemaSql] at houter'
  simp [strokes, Token.strokes, schemaTest] at houter' hinner'
  rw [← List.count_eq_zero]
  omega

theorem createsOnly_of_no_quote {schemaName : Text} (h : '\'' ∉ schemaName) : CreatesOnly schemaName := by
  refine ⟨"CREATE SCHEMA [".toList ++ escapeSqlBracket schemaName ++ [']'], ?_, ?_⟩
  · have htest : Reads .between "IF NOT EXISTS (SELECT * FROM sys.schemas WHERE name = N'".toList
        [.word "IF".toList, .word "NOT".toList, .word "EXISTS".toList, .symbol '(', .word "SELECT".toList,
          .symbol '*', .word "FROM".toList, .word "sys".toList, .symbol '.', .word "schemas".toList,
          .word "WHERE".toList, .word "name".toList, .symbol '='] (.inside .national []) := by decide
    have hexec : Reads (.inside .national schemaName) "') EXEC('CREATE SCHEMA [".toList
        [.quoted .national schemaName, .symbol ')', .word "EXEC".toList, .symbol '(']
        (.inside .plain "CREATE SCHEMA [".toList) := rfl
    have hname := reads_escape .plain "CREATE SCHEMA [".toList (escapeSqlBracket schemaName)
    have hclose (content : Text) : Reads (.inside .plain content) "]')".toList
        [.quoted .plain (content ++ [']']), .symbol ')'] .between := rfl
    have hbody : '\'' ∉ escapeSqlBracket schemaName := by
      rwa [← List.count_eq_zero, count_escapeSqlBracket, List.count_eq_zero]
    rw [escape_plain hbody] at hname
    exact ((((htest.append (reads_national schemaName)).append hexec).append hname).append (hclose _)).lex rfl
  · have hcreate : Reads .between "CREATE SCHEMA [".toList [.word "CREATE".toList, .word "SCHEMA".toList]
        (.inside .bracket []) := by decide
    have hname := reads_quoted .bracket schemaName
    rw [← escapeSqlBracket_eq] at hname
    rw [List.append_assoc]
    exact (hcreate.append hname).lex rfl

/-- Creating a schema runs nothing but the intended statements exactly when its name holds no
single quote. -/
theorem createSchemaSql_lexes_iff (schemaName : Text) : CreatesOnly schemaName ↔ '\'' ∉ schemaName :=
  ⟨CreatesOnly.no_quote, createsOnly_of_no_quote⟩

/-- A name that closes the string and the parenthesis executes a statement of its own. -/
theorem createSchemaSql_injected :
    lex (createSchemaSql "x'); DROP TABLE t; --".toList) =
      some (schemaTest "x'); DROP TABLE t; --".toList ++
        [.word "EXEC".toList, .symbol '(', .quoted .plain "CREATE SCHEMA [x".toList, .symbol ')', .symbol ';',
          .word "DROP".toList, .word "TABLE".toList, .word "t".toList, .symbol ';']) ∧
      ¬ CreatesOnly "x'); DROP TABLE t; --".toList := by
  constructor
  · decide +kernel
  · intro h
    exact absurd h.no_quote (by decide)

end SqlxMssql
