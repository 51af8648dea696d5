import AegisCognition.Lab.Mission
import AegisCognition.LabGoal.Value

/-!
# Target descriptors

What a goal may inspect and change. A root is a URI or a file path; containment of roots is
lexical and rests on the functions of the standard library that take URLs and paths apart, which
are a parameter here. A function of the library that raises a `ValueError` has no result.
-/

namespace Aegis.LabGoal

open Foundation String
open Replay (Hash)

/-- The parts of a URL. A port that is no number in range has no value at all. -/
structure ParseResult where
  scheme : String
  netloc : String
  path : String
  query : String
  fragment : String
  username : Option String
  password : Option String
  hostname : Option String
  port : Option (Option Nat)

/-- What goal contracts take from the standard library and from BLAKE3. The functions without a
module in their name are those of the `os.path` of the host. -/
structure Library where
  urlparse : String → Option ParseResult
  posixNormpath : String → String
  ntNormpath : String → String
  ntNormcase : String → String
  ntCommonpath : String → String → Option String
  isabs : String → Bool
  abspath : String → String
  normpath : String → String
  normcase : String → String
  commonpath : String → String → Option String
  lower : String → String
  floatRepr : F64 → String
  blake3 : List UInt8 → Hash

/-! ### Scopes -/

/-- The second character is a colon and the third a slash of either kind. -/
def hasDriveShape : List Char → Bool
  | _ :: ':' :: slash :: _ => slash == '/' || slash == '\\'
  | _ => false

/-- The regular expression of a path on a drive. -/
def startsWithDrive (slashes : List Char) : List Char → Bool
  | letter :: ':' :: slash :: _ => letter.isAlpha && slashes.contains slash
  | _ => false

def rstripSlashes (path : String) : String :=
  ofList (path.toList.rdropWhile (· == '/'))

structure UriScope where
  scheme : String
  netloc : String
  path : String

variable (lib : Library)

def parseUrl (value : String) : Except GoalError ParseResult :=
  okOr (.value "invalid URL") (lib.urlparse value)

/-- Encoded dots and separators, and backslashes. -/
def isAmbiguousPath (path : String) : Bool :=
  let lower := path.toList.map Char.toLower
  path.toList.contains '\\' || containsText "%2e".toList lower || containsText "%2f".toList lower ||
    containsText "%5c".toList lower

def normalizedUriPath (rawPath : String) : String :=
  let normalized := lib.posixNormpath rawPath
  let rooted :=
    if rawPath.startsWith "/" && !normalized.startsWith "/" then "/" ++ normalized else normalized
  let path := if rooted = "." then "/" else rooted
  if rstripSlashes path = "" then "/" else rstripSlashes path

def uriScope (value : String) : Except GoalError (Option UriScope) :=
  if hasDriveShape value.toList then .ok none
  else do
    let parsed ← parseUrl lib value
    if parsed.scheme = "" || parsed.username.isSome || parsed.password.isSome then .ok none
    else if parsed.port.isNone then .ok none
    else if parsed.query ≠ "" || parsed.fragment ≠ "" then .ok none
    else
      let rawPath := if parsed.path = "" then "/" else parsed.path
      if isAmbiguousPath rawPath then .ok none
      else
        .ok (some ⟨lib.lower parsed.scheme, lib.lower parsed.netloc,
          normalizedUriPath lib rawPath⟩)

def uriHasDotSegments (value : String) : Except GoalError Bool := do
  let parsed ← parseUrl lib value
  .ok ((parsed.path.toList.splitOn '/').any fun segment =>
    segment == ['.'] || segment == ['.', '.'])

def validateUriScopeRoots (label : String) : List String → Except GoalError Unit
  | [] => .ok ()
  | entry :: entries =>
      if hasDriveShape entry.toList then validateUriScopeRoots label entries
      else do
        let parsed ← parseUrl lib entry
        if parsed.scheme = "" then validateUriScopeRoots label entries
        else
          let scope ← uriScope lib entry
          refuseWhen (scope = none)
            (.value (label ++ " contains an invalid or ambiguous URI scope"))
          let dots ← uriHasDotSegments lib entry
          refuseWhen (dots = true) (.value (label ++ " must not contain URI dot segments"))
          validateUriScopeRoots label entries

def filesystemScope (value : String) : Except GoalError (Option String) := do
  if (← uriScope lib value).isSome then .ok none
  else if startsWithDrive ['\\', '/'] value.toList || value.startsWith "\\\\" ||
      value.startsWith "//" then
    let windows := ofList (value.toList.map fun c => if c = '/' then '\\' else c)
    .ok (some (lib.ntNormcase (lib.ntNormpath windows)))
  else if !lib.isabs value then .ok none
  else .ok (some (lib.normcase (lib.normpath (lib.abspath value))))

def isWindowsPath (path : String) : Bool :=
  startsWithDrive ['\\'] path.toList || path.startsWith "\\\\"

def scopeContains (candidate root : String) : Except GoalError Bool := do
  let candidateUri ← uriScope lib candidate
  let rootUri ← uriScope lib root
  match candidateUri, rootUri with
  | some candidateUri, some rootUri =>
      .ok (candidateUri.scheme == rootUri.scheme && candidateUri.netloc == rootUri.netloc &&
        (candidateUri.path == rootUri.path ||
          candidateUri.path.startsWith (rstripSlashes rootUri.path ++ "/")))
  | some _, none => .ok false
  | none, some _ => .ok false
  | none, none => do
      let candidatePath ← filesystemScope lib candidate
      let rootPath ← filesystemScope lib root
      match candidatePath, rootPath with
      | some candidatePath, some rootPath =>
          let commonpath :=
            if isWindowsPath candidatePath || isWindowsPath rootPath then lib.ntCommonpath
            else lib.commonpath
          .ok (commonpath candidatePath rootPath == some rootPath)
      | _, _ => .ok false

def externalSideEffectKey (toolName effectClass : String) : Except GoalError String := do
  let tool ← requiredText "external effect tool_name" toolName
  let effect ← requiredText "external effect effect_class" effectClass
  refuseWhen
    (containsText "::".toList tool.1.toList || containsText "::".toList effect.1.toList)
    (.value "external effect components must not contain '::'")
  .ok (tool.1 ++ "::" ++ effect.1)

/-- `str.count` of the two colons: the occurrences that do not overlap, from the left. -/
def countSeparators : List Char → Nat
  | ':' :: ':' :: rest => countSeparators rest + 1
  | _ :: rest => countSeparators rest
  | [] => 0

def validateExternalEffectEntries : List String → Except GoalError Unit
  | [] => .ok ()
  | entry :: entries => do
      refuseWhen (countSeparators entry.toList ≠ 1)
        (.value "target external_side_effects must use tool_name::effect_class keys")
      let (toolName, effectClass) ←
        okOr (.value "not enough values to unpack") (splitOnce "::".toList entry.toList)
      let key ← externalSideEffectKey (ofList toolName) (ofList effectClass)
      refuseWhen (key ≠ entry) (.value "target external_side_effects contains a non-canonical key")
      validateExternalEffectEntries entries

/-! ### Descriptors -/

structure TargetFields where
  kind : RequiredText
  stableId : RequiredText
  revisionOrDigest : RequiredText
  readRoots : StringSequence
  writeRoots : StringSequence
  networkAllowlist : StringSequence
  externalSideEffects : StringSequence
  owner : RequiredText
  deriving DecidableEq

def texts (values : List String) : Value :=
  .list (values.map .text)

def TargetFields.toDict (target : TargetFields) : Value :=
  .dict [("kind", .text target.kind), ("stable_id", .text target.stableId),
    ("revision_or_digest", .text target.revisionOrDigest),
    ("read_roots", texts target.readRoots), ("write_roots", texts target.writeRoots),
    ("network_allowlist", texts target.networkAllowlist),
    ("external_side_effects", texts target.externalSideEffects), ("owner", .text target.owner)]

/-- A target that was built, with the checks that it has passed. -/
structure TargetDescriptor extends TargetFields where
  readScopes : validateUriScopeRoots lib "target read_roots" readRoots = .ok ()
  writeScopes : validateUriScopeRoots lib "target write_roots" writeRoots = .ok ()
  effectEntries : validateExternalEffectEntries externalSideEffects = .ok ()
  fits : GoalContractLimits.default.validateWire lib.floatRepr toTargetFields.toDict = .ok ()
  deriving DecidableEq

/-- The fields that an evolved target may only narrow. -/
inductive TargetField
  | readRoots | writeRoots | networkAllowlist | externalSideEffects
  deriving DecidableEq

namespace TargetField

def all : List TargetField := [readRoots, writeRoots, networkAllowlist, externalSideEffects]

def name : TargetField → String
  | readRoots => "read_roots"
  | writeRoots => "write_roots"
  | networkAllowlist => "network_allowlist"
  | externalSideEffects => "external_side_effects"

def values (target : TargetFields) : TargetField → List String
  | readRoots => target.readRoots
  | writeRoots => target.writeRoots
  | networkAllowlist => target.networkAllowlist
  | externalSideEffects => target.externalSideEffects

def isScope (field : TargetField) : Bool :=
  field == readRoots || field == writeRoots

end TargetField

/-- `_target_values_are_subset`. -/
def targetValuesAreSubset (field : TargetField) (candidateValues parentValues : List String) :
    Except GoalError Bool :=
  if field.isScope then
    candidateValues.allM fun candidate => parentValues.anyM (scopeContains lib candidate ·)
  else .ok (candidateValues.all parentValues.contains)

namespace TargetDescriptor

variable {lib}

def isBound (target : TargetDescriptor lib) : Bool :=
  target.stableId.1 != "unbound" && target.revisionOrDigest.1 != "unbound"

end TargetDescriptor

end Aegis.LabGoal
