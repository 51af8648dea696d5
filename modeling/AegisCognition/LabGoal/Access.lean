import AegisCognition.Foundation.Pathname
import AegisCognition.LabGoal.Target

/-!
# What a target allows

A target names the hosts that may be asked and the roots below which a path may be read or
written. An effect class decides which roots count; a class that is not known has none. Which
functions take paths apart depends on the host, of which there are two kinds.
-/

namespace Aegis.LabGoal

open Foundation String

/-! ### Hosts and paths -/

def targetReadEffects : List String := ["read_only", "network_read", "model_inference"]

def targetWriteEffects : List String :=
  ["local_reversible", "external_write", "destructive", "state_write", "memory_write",
    "post_completion_effect"]

def rstripDots (host : String) : String :=
  ofList (host.toList.rdropWhile (· == '.'))

/-- The host that an entry of the allow list grants. -/
def grantedHost (lib : Library) (entry : String) : Option String :=
  let candidate := if containsText "://".toList entry.toList then entry else "https://" ++ entry
  match lib.urlparse candidate with
  | none => none
  | some parsed =>
      match parsed.port with
      | none => none
      | some port =>
          if (parsed.scheme ≠ "http" ∧ parsed.scheme ≠ "https") ∨
              !parsed.hostname.any (· != "") ∨ parsed.username.isSome ∨ parsed.password.isSome ∨
              port.isSome ∨ (parsed.path ≠ "" ∧ parsed.path ≠ "/") ∨ parsed.query ≠ "" ∨
              parsed.fragment ≠ "" then none
          else
            let host := rstripDots (lib.lower (parsed.hostname.getD ""))
            if host != "" && !host.toList.contains '*' then some host else none

namespace TargetDescriptor

variable {lib : Library} (target : TargetDescriptor lib)

def networkHosts : List String :=
  sortTexts (target.networkAllowlist.1.filterMap (grantedHost lib)).dedup

def allowsNetworkHost (host : String) : Bool :=
  if strip host = "" then false
  else target.networkHosts.contains (rstripDots (lib.lower (strip host)))

/-- The roots that count for an effect. -/
def rootsFor (normalizedEffect : String) : List String :=
  if targetWriteEffects.contains normalizedEffect then target.writeRoots
  else if normalizedEffect = "compute" then target.readRoots.1 ++ target.writeRoots.1
  else if targetReadEffects.contains normalizedEffect then target.readRoots
  else []

def allowsPath (path effectClass : String) : Except GoalError Bool :=
  if strip path = "" then .ok false
  else
    (target.rootsFor (lib.lower (strip effectClass))).anyM fun root =>
      scopeContains lib (strip path) root

end TargetDescriptor

/-! ### The two kinds of hosts -/

section Hosts

variable (lib : Library)

def ntKind : PathKind :=
  Windows.kind fun text => (lib.lower (ofList text)).toList

def FileScope (value scope : String) : Prop :=
  filesystemScope lib value = .ok (some scope)

/-- The path has a drive, whose letter is one character in lower case, too, and a root. -/
def HasDrive (path : String) : Prop :=
  ∃ letter rest, path.toList = letter :: ':' :: '\\' :: rest ∧
    (lib.lower (ofList [letter])).length = 1

/-- The text is a scope of one of the two syntaxes. -/
def IsScope (path : String) : Prop :=
  (isWindowsPath path = true ∨ HasDrive lib path) ∨ Posix.IsNormal path.toList

/-- What the library does alike on both kinds of hosts. -/
structure LexicalLibrary : Prop where
  lower (word : String) : (word.toList.all fun c => c.isLower || c == '_') = true →
    lib.lower word = word
  urlparse (path : String) : path.startsWith "/\\" = true →
    ∃ parsed, lib.urlparse path = some parsed ∧ parsed.scheme = ""
  ntNormalized (path : String) : isWindowsPath path = true →
    isWindowsPath (lib.ntNormcase (lib.ntNormpath path)) = true
  ntCommonpath (first second : String) : IsScope lib first → IsScope lib second →
    lib.ntCommonpath first second =
      ((ntKind lib).commonpath first.toList second.toList).map ofList

/-- `os.path` is `posixpath`. -/
structure PosixHost : Prop extends LexicalLibrary lib where
  isabs (path : String) : lib.isabs path = path.startsWith "/"
  normalized (path : String) : path.startsWith "/" = true → path.startsWith "//" = false →
    lib.normcase (lib.normpath (lib.abspath path)) = ofList (Posix.normalize path.toList)
  commonpath (first second : String) : Posix.IsNormal first.toList →
    Posix.IsNormal second.toList →
    lib.commonpath first second =
      (Posix.kind.commonpath first.toList second.toList).map ofList

/-- `os.path` is `ntpath`. Any character is a drive there. `commonpath` takes the paths apart in
lower case and does not see the drive `İ:`, whose letter becomes two: such a scope has a common
path with itself only. -/
structure WindowsHost : Prop extends LexicalLibrary lib where
  normalized (path : String) : lib.isabs path = true →
    Windows.IsAbsolute (lib.normcase (lib.normpath (lib.abspath path))).toList
  commonpath : lib.commonpath = lib.ntCommonpath
  unseen (path root first second : String) : FileScope lib path first → FileScope lib root second →
    ¬ (IsScope lib first ∧ IsScope lib second) → lib.ntCommonpath first second = some second →
    first = second

end Hosts

/-! ### What the functions return -/

section Spec

variable {lib : Library}

/-- The paths of one URI go on from the other's. -/
def UriScope.Within (candidate root : UriScope) : Prop :=
  candidate.scheme = root.scheme ∧ candidate.netloc = root.netloc ∧
    GoesOn '/' candidate.path.toList root.path.toList

theorem UriScope.Within.trans {first second third : UriScope} (h : first.Within second)
    (h' : second.Within third) : first.Within third :=
  ⟨h.1.trans h'.1, h.2.1.trans h'.2.1, h.2.2.trans h'.2.2⟩

/-- The root is the longest common path of the two scopes. -/
def Covers (lib : Library) (candidate root : String) : Prop :=
  (if isWindowsPath candidate || isWindowsPath root then lib.ntCommonpath else lib.commonpath)
    candidate root = some root

section

variable {candidate root : String}

theorem goesOn_iff_startsWith :
    (candidate == root || candidate.startsWith (rstripSlashes root ++ "/")) = true ↔
      GoesOn '/' candidate.toList root.toList := by
  rw [Bool.or_eq_true, beq_iff_eq, startsWith_string_iff, GoesOn, toList_inj]
  have front : (rstripSlashes root ++ "/").toList =
      root.toList.rdropWhile (· == '/') ++ ['/'] := by
    rw [toList_append, rstripSlashes, toList_ofList]
    rfl
  rw [front]
  refine or_congr Iff.rfl ⟨fun ⟨rest, eq⟩ => ⟨rest, ?_⟩, fun ⟨rest, eq⟩ => ⟨rest, ?_⟩⟩
  · rw [← eq, List.append_assoc, List.singleton_append]
  · rw [eq, List.append_assoc, List.singleton_append]

theorem uriScope_of_fileScope {value scope : String} (h : FileScope lib value scope) :
    uriScope lib value = .ok none := by
  simp only [FileScope, filesystemScope, bind_eq_ok_iff] at h
  obtain ⟨uri, parsed, h⟩ := h
  cases uri with
  | none => exact parsed
  | some uri => cases h

/-- One scope contains another, both of them URIs or both of them paths. -/
theorem scopeContains_eq_ok_true_iff : scopeContains lib candidate root = .ok true ↔
      (∃ first second, uriScope lib candidate = .ok (some first) ∧
        uriScope lib root = .ok (some second) ∧ first.Within second) ∨
      ∃ first second, FileScope lib candidate first ∧ FileScope lib root second ∧
        Covers lib first second := by
  constructor
  · intro h
    simp only [scopeContains, bind_eq_ok_iff] at h
    obtain ⟨candidateUri, first, rootUri, second, h⟩ := h
    cases candidateUri with
    | some candidateUri =>
        cases rootUri with
        | none => cases h
        | some rootUri =>
            have within := Except.ok.inj h
            simp only [Bool.and_eq_true, beq_iff_eq, and_assoc, goesOn_iff_startsWith] at within
            exact .inl ⟨candidateUri, rootUri, first, second, within⟩
    | none =>
        cases rootUri with
        | some rootUri => cases h
        | none =>
            obtain ⟨candidatePath, first', h⟩ := bind_eq_ok_iff.mp h
            obtain ⟨rootPath, second', h⟩ := bind_eq_ok_iff.mp h
            cases candidatePath with
            | none => cases h
            | some candidatePath =>
                cases rootPath with
                | none => cases h
                | some rootPath =>
                    have common := Except.ok.inj h
                    exact .inr ⟨candidatePath, rootPath, first', second', beq_iff_eq.mp common⟩
  · rintro (⟨first, second, parsed, parsed', within⟩ | ⟨first, second, located, located', covers⟩)
    · have same : (first.path == second.path ||
          first.path.startsWith (rstripSlashes second.path ++ "/")) = true :=
        goesOn_iff_startsWith.mpr within.2.2
      simp only [scopeContains, parsed, parsed', bind, Except.bind, within.1, within.2.1,
        beq_self_eq_true, Bool.true_and, same]
    · have none := uriScope_of_fileScope located
      have none' := uriScope_of_fileScope located'
      rw [FileScope] at located located'
      rw [Covers] at covers
      simp only [scopeContains, none, none', located, located', bind, Except.bind, covers,
        beq_self_eq_true]

/-- A comparison fails only where a text is no URL. -/
theorem scopeContains_total {first second : Option UriScope}
    (h : uriScope lib candidate = .ok first) (h' : uriScope lib root = .ok second) :
    ∃ contained, scopeContains lib candidate root = .ok contained := by
  have located {value : String} (none : uriScope lib value = .ok none) :
      ∃ scope, filesystemScope lib value = .ok scope := by
    simp only [filesystemScope, none, bind, Except.bind]
    split_ifs <;> exact ⟨_, rfl⟩
  cases first with
  | some first =>
      cases second <;>
        exact ⟨_, by simp only [scopeContains, h, h', bind, Except.bind]; rfl⟩
  | none =>
      cases second with
      | some second => exact ⟨_, by simp only [scopeContains, h, h', bind, Except.bind]; rfl⟩
      | none =>
          obtain ⟨firstScope, eq⟩ := located h
          obtain ⟨secondScope, eq'⟩ := located h'
          cases firstScope <;> cases secondScope <;>
            exact ⟨_, by simp only [scopeContains, h, h', eq, eq', bind, Except.bind]; rfl⟩

theorem uriScope_of_scopeContains {contained : Bool}
    (h : scopeContains lib candidate root = .ok contained) :
    ∃ scope, uriScope lib candidate = .ok scope := by
  obtain ⟨scope, parsed, -⟩ := bind_eq_ok_iff.mp h
  exact ⟨scope, parsed⟩

end

end Spec

end Aegis.LabGoal
