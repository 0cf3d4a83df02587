import IndexCoordinator.Decimal.Shortest
import IndexCoordinator.Decimal.Width
import IndexCoordinator.Settings
import IndexCoordinator.Text.Quoted
import IndexCoordinator.Toml.Document

/-!
# Loading settings

Settings are the top level of a TOML document: three known keys, all optional, and no others.
The keys are looked at in the order of their names, and the first fault is reported.
-/

namespace IndexCoordinator

/-- what a key expects -/
inductive Expected where
  | boolean
  | unsigned
deriving DecidableEq, Repr

def Expected.message : Expected → String
  | .boolean => "a boolean"
  | .unsigned => "u64"

/-- why the entries of a document are no settings -/
inductive SettingsFault where
  | unknownField (key : String)
  /-- a value of another kind, described by `found` -/
  | wrongType (found : String) (expected : Expected)
  | negative (value : Int)
  | integerOverflow
  | floatOverflow
deriving DecidableEq, Repr

namespace SettingsFault

def message : SettingsFault → String
  | .unknownField key =>
    "unknown field `" ++ key ++ "`, expected one of `skip-superseded-filename-index`, " ++
      "`file-size-limit`, `await-poll-interval-ms`"
  | .wrongType found expected =>
    "invalid type: " ++ found ++ ", expected " ++ expected.message
  | .negative value => "invalid value: integer `" ++ toString value ++ "`, expected u64"
  | .integerOverflow => "integer number overflowed"
  | .floatOverflow => "floating-point number overflowed"

end SettingsFault

inductive SettingsError where
  /-- the file could not be read -/
  | io (path : String) (cause : String)
  /-- the text is not a TOML document -/
  | syntaxError
  | fault (cause : SettingsFault)
deriving DecidableEq, Repr

namespace SettingsError

/-- the wording; what is wrong with the form of a text is left to the reader of the text -/
def message : SettingsError → String
  | .io path cause => "failed to read " ++ path ++ ": " ++ cause
  | .syntaxError => "invalid indexing settings"
  | .fault cause => cause.message

end SettingsError

namespace IndexingSettings

/-- floating point numbers in messages never have an exponent; of two texts equally near the one
farther from zero is taken -/
def floatStyle : Decimal.Style := ⟨none, none, false, .away⟩

def floatText : Toml.FloatLiteral → Option String
  | .nan => some "NaN"
  | .infinite true => some "-inf"
  | .infinite false => some "inf"
  | .finite negative m e =>
    (Decimal.Binary64.ofDecimal m e).map (Decimal.Binary64.render floatStyle negative)

/-- how a value of the wrong kind is described.  An integer beyond 64 bits is said to be one of
128 bits, with a sign if those suffice, and one beyond those, or one that
denotes nothing, is not described at all. -/
def describe : Toml.Node → Except SettingsFault String
  | .text s => .ok ("string " ++ Text.quoted s)
  | .boolean b => .ok ("boolean `" ++ toString b ++ "`")
  | .integer none => .error .integerOverflow
  | .integer (some n) =>
    match Decimal.Width.ofInt n with
    | .unsigned64 => .ok ("integer `" ++ toString n ++ "`")
    | .negative64 => .ok ("integer `" ++ toString n ++ "`")
    | .signed128 => .ok ("integer `" ++ toString n ++ "` as i128")
    | .unsigned128 => .ok ("integer `" ++ toString n ++ "` as u128")
    | .wider => .error .integerOverflow
  | .float f =>
    match floatText f with
    | some s => .ok ("floating point `" ++ s ++ "`")
    | none => .error .floatOverflow
  | .array _ => .ok "sequence"
  | .tables _ => .ok "sequence"
  | .table _ _ => .ok "map"
  | .dateTime => .ok "map"

def mismatch (v : Toml.Node) (expected : Expected) : SettingsFault :=
  match describe v with
  | .ok found => .wrongType found expected
  | .error fault => fault

def readBoolean : Toml.Node → Except SettingsFault Bool
  | .boolean b => .ok b
  | v => .error (mismatch v .boolean)

/-- a number of 64 bits; the negative numbers of 64 bits have a fault of their own -/
def readUnsigned : Toml.Node → Except SettingsFault Nat
  | .integer (some n) =>
    match Decimal.Width.ofInt n with
    | .unsigned64 => .ok n.toNat
    | .negative64 => .error (.negative n)
    | _ => .error (mismatch (.integer (some n)) .unsigned)
  | v => .error (mismatch v .unsigned)

def setField (s : IndexingSettings) (key : String) (v : Toml.Node) :
    Except SettingsFault IndexingSettings :=
  if key = "skip-superseded-filename-index" then
    (readBoolean v).map fun b => { s with skipFilenameIndex := b }
  else if key = "file-size-limit" then
    (readUnsigned v).map fun n => { s with fileSizeLimit := n }
  else if key = "await-poll-interval-ms" then
    (readUnsigned v).map fun n => { s with pollIntervalMs := n }
  else .error (.unknownField key)

def setFields (s : IndexingSettings) : Toml.Entries → Except SettingsFault IndexingSettings
  | [] => .ok s
  | (key, v) :: rest =>
    match s.setField key v with
    | .ok s => setFields s rest
    | .error e => .error e

def read (source : String) : Except SettingsError IndexingSettings :=
  match Toml.Document.read? source with
  | none => .error .syntaxError
  | some entries =>
    match setFields {} (entries.mergeSort fun a b => decide (a.1 ≤ b.1)) with
    | .ok s => .ok s
    | .error e => .error (.fault e)

end IndexingSettings

/-- what stands at a path -/
inductive FileContent where
  | missing
  | directory
  | bytes (content : ByteArray)

/-- load settings from what stands at a path; a missing file gives the defaults -/
def IndexingSettings.load (path : String) : FileContent → Except SettingsError IndexingSettings
  | .missing => .ok {}
  | .directory => .error (.io path "Is a directory (os error 21)")
  | .bytes content =>
    match String.fromUTF8? content with
    | some source => IndexingSettings.read source
    | none => .error (.io path "stream did not contain valid UTF-8")

end IndexCoordinator
