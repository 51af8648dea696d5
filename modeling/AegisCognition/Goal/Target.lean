import AegisCognition.Foundation.Path
import AegisCognition.Foundation.Text
import AegisCognition.Lab.Budget

/-!
# Targets

The resources that a goal may inspect or change. A root is a URI or a file path. A URI lies in
another one with the same scheme and authority if its path starts with the path of the other;
its roots may not have dot segments. A file path lies in another one if its components start
with the components of the other, and its dot segments are not looked at.
-/

namespace Aegis.Goal

open Foundation List String
open Lab (ContractError)

structure TargetDescriptor where
  kind : String
  stableId : String
  revisionOrDigest : String
  readRoots : List String
  writeRoots : List String
  networkAllowlist : List String
  externalSideEffects : List String
  owner : String

/-! ### URIs -/

/-- The authority of a URI and its path, which is a slash if there is none. -/
def splitAuthority (authorityAndPath : List Char) : List Char × List Char :=
  let path := authorityAndPath.dropWhile (· != '/')
  (authorityAndPath.takeWhile (· != '/'), if path.isEmpty then ['/'] else path)

def isDotSegment (segment : List Char) : Bool :=
  segment == ['.'] || segment == ['.', '.']

def targetScopeIsAmbiguousUri (value : String) : Bool :=
  match splitOnce "://".toList value.toList with
  | none => false
  | some (_, authorityAndPath) =>
      let path := (splitAuthority authorityAndPath).2
      let lower := path.map Char.toLower
      path.contains '\\' || path.contains '?' || path.contains '#' ||
        containsText "%2e".toList lower || containsText "%2f".toList lower ||
        containsText "%5c".toList lower || (path.splitOn '/').any isDotSegment

structure UriScope where
  scheme : List Char
  authority : List Char
  path : List Char

def parseUri (value : String) : Option UriScope :=
  (splitOnce "://".toList value.toList).map fun (scheme, authorityAndPath) =>
    let (authority, path) := splitAuthority authorityAndPath
    { scheme := scheme.map Char.toLower, authority := authority.map Char.toLower, path }

/-! ### File paths -/

def isAbsolute (value : String) : Bool :=
  value.toList.head? == some '/'

/-- The component that a segment stands for. Empty segments and single dots stand for none. -/
def pathStep (segment : List Char) : Option (PathStep (List Char)) :=
  if segment.isEmpty || segment == ['.'] then none
  else if segment == ['.', '.'] then some .up
  else some (.into segment)

/-- The components of an absolute path after its root. -/
def components (path : List Char) : List (PathStep (List Char)) :=
  (path.splitOn '/').filterMap pathStep

/-! ### Containment -/

/-- The rest of a text that starts with this prefix. -/
def stripPrefix (start text : List Char) : Option (List Char) :=
  if start.isPrefixOf text then some (text.drop start.length) else none

def targetScopeContains (candidate parent : String) : Bool :=
  match parseUri candidate, parseUri parent with
  | some candidateUri, some parentUri =>
      if candidateUri.scheme ≠ parentUri.scheme ∨ candidateUri.authority ≠ parentUri.authority then
        false
      else
        candidateUri.path == parentUri.path ||
          (stripPrefix (parentUri.path.rdropWhile (· == '/')) candidateUri.path).any
            (·.head? == some '/')
  | some _, none => false
  | none, some _ => false
  | none, none =>
      isAbsolute candidate && isAbsolute parent &&
        (components parent.toList).isPrefixOf (components candidate.toList)

/-- The fields that an evolved target may only narrow. -/
inductive TargetField
  | readRoots | writeRoots | networkAllowlist | externalSideEffects
  deriving DecidableEq

namespace TargetField

def all : List TargetField := [readRoots, writeRoots, networkAllowlist, externalSideEffects]

def values (target : TargetDescriptor) : TargetField → List String
  | readRoots => target.readRoots
  | writeRoots => target.writeRoots
  | networkAllowlist => target.networkAllowlist
  | externalSideEffects => target.externalSideEffects

def isScope (field : TargetField) : Bool :=
  field == readRoots || field == writeRoots

end TargetField

def targetValuesAreSubset (field : TargetField) (candidateValues parentValues : List String) :
    Bool :=
  if field.isScope then
    candidateValues.all fun candidate => parentValues.any (targetScopeContains candidate ·)
  else
    candidateValues.all fun candidate => parentValues.any (· == candidate)

/-! ### Validation -/

/-- An entry that is not a tool name and an effect class with two colons between them. -/
def externalEffectIsInvalid (entry : String) : Bool :=
  match splitOnce "::".toList entry.toList with
  -- Without a separator the effect class is empty.
  | none => true
  | some (toolName, rest) =>
      (splitOnce "::".toList rest).isSome || isBlank (ofList toolName) ||
        isBlank (ofList rest) || !isTrimmed (ofList toolName) ||
        !isTrimmed (ofList rest)

namespace TargetDescriptor

def legacy : TargetDescriptor where
  kind := "legacy"
  stableId := "unbound"
  revisionOrDigest := "unbound"
  readRoots := []
  writeRoots := []
  networkAllowlist := []
  externalSideEffects := []
  owner := "legacy-constructor"

def validate (target : TargetDescriptor) : Except ContractError Unit := do
  refuseWhen
    (isBlank target.kind || isBlank target.stableId || isBlank target.revisionOrDigest ||
      isBlank target.owner ||
      (TargetField.all.flatMap (·.values target)).any fun value =>
        isBlank value || !isTrimmed value)
    .emptyField
  refuseWhen (TargetField.all.any fun field => !decide (field.values target).Nodup) .emptyField
  refuseWhen ((target.readRoots ++ target.writeRoots).any targetScopeIsAmbiguousUri) .emptyField
  refuseWhen
    (target.externalSideEffects.any externalEffectIsInvalid ||
      !decide target.externalSideEffects.Nodup)
    .emptyField

def isBound (target : TargetDescriptor) : Bool :=
  target.stableId != "unbound" && target.revisionOrDigest != "unbound"

end TargetDescriptor

/-! ## Locations

What a root denotes once its dot segments are resolved, and when one location lies inside
another. A root that the containment check admits lies inside the parent, unless it is a file
path that climbs above it. -/

/-! ### What a root denotes -/

/-- A place under an authority or in the file system. A path without a leading slash denotes
nothing but itself. -/
inductive Location
  | uri (scheme authority : List Char) (path : List (List Char))
  | file (path : List (List Char))
  | relative (text : String)

def locate (value : String) : Location :=
  match parseUri value with
  | some uri => .uri uri.scheme uri.authority (walk [] (components uri.path))
  | none =>
      if isAbsolute value then .file (walk [] (components value.toList)) else .relative value

/-- The first location is the second one or lies below it. -/
def Location.Inside : Location → Location → Prop
  | uri scheme authority path, uri scheme' authority' path' =>
      scheme = scheme' ∧ authority = authority' ∧ path' <+: path
  | file path, file path' => path' <+: path
  | relative text, relative text' => text = text'
  | _, _ => False

namespace Location.Inside

theorem refl (location : Location) : location.Inside location := by
  cases location with
  | uri scheme authority path => exact ⟨rfl, rfl, prefix_rfl⟩
  | file path => exact prefix_rfl
  | relative text => rfl

theorem trans {first second third : Location} (h : first.Inside second)
    (h' : second.Inside third) : first.Inside third := by
  cases first <;> cases second <;> cases third <;> try contradiction
  · obtain ⟨rfl, rfl, below⟩ := h
    obtain ⟨rfl, rfl, below'⟩ := h'
    exact ⟨rfl, rfl, below'.trans below⟩
  · exact List.IsPrefix.trans h' h
  · exact Eq.trans h h'

end Location.Inside

/-! ### Components -/

theorem components_append_slash (first second : List Char) :
    components (first ++ '/' :: second) = components first ++ components second := by
  rw [components, splitOn_append_cons_self, filterMap_append, components, components]

/-- Slashes at the end of a path are no components. -/
theorem components_rdropWhile (path : List Char) :
    components (path.rdropWhile (· == '/')) = components path := by
  induction path using reverseRecOn with
  | nil => rfl
  | append_singleton path last ih =>
      by_cases slash : last = '/'
      · subst slash
        have dropped : (path ++ ['/']).rdropWhile (· == '/') = path.rdropWhile (· == '/') :=
          rdropWhile_concat_pos _ _ _ rfl
        rw [dropped, ih, components_append_slash]
        exact (append_nil _).symm
      · have kept : (path ++ [last]).rdropWhile (· == '/') = path ++ [last] :=
          rdropWhile_concat_neg _ _ _ (by simpa using slash)
        rw [kept]

theorem up_notMem_components {path : List Char}
    (h : (path.splitOn '/').any isDotSegment = false) : PathStep.up ∉ components path := by
  intro mem
  obtain ⟨segment, among, step⟩ := mem_filterMap.mp mem
  have plain := any_eq_false.mp h segment among
  simp only [isDotSegment, Bool.or_eq_true, beq_iff_eq, not_or] at plain
  simp [pathStep, plain.1, plain.2] at step

/-! ### Containment -/

/-- A file path that climbs above the parent, once it has named it. -/
def climbsAbove (candidate parent : String) : Bool :=
  (parseUri candidate).isNone &&
    climbs 0 ((components candidate.toList).drop (components parent.toList).length)

theorem path_of_ambiguous {value : String} {uri : UriScope}
    (h : targetScopeIsAmbiguousUri value = false) (parsed : parseUri value = some uri) :
    PathStep.up ∉ components uri.path := by
  obtain ⟨⟨scheme, rest⟩, split, rfl⟩ := Option.map_eq_some_iff.mp parsed
  simp only [targetScopeIsAmbiguousUri, split, Bool.or_eq_false_iff] at h
  exact up_notMem_components h.2

/-- The path of a URI that is contained in another one goes on from there. -/
theorem components_of_stripPrefix {path parent rest : List Char}
    (h : stripPrefix (parent.rdropWhile (· == '/')) path = some rest)
    (slash : rest.head? = some '/') :
    ∃ tail, components path = components parent ++ components tail := by
  unfold stripPrefix at h
  split at h
  · rename_i starts
    obtain ⟨rest', rfl⟩ := List.isPrefixOf_iff_prefix.mp starts
    obtain rfl : rest' = rest := by simpa using h
    obtain ⟨tail, rfl⟩ := List.head?_eq_some_iff.mp slash
    exact ⟨tail, by rw [components_append_slash, components_rdropWhile]⟩
  · cases h

theorem below_walk {place : List (List Char)} {steps : List (PathStep (List Char))}
    (h : climbs 0 steps = false) : place <+: walk place steps := by
  have below : place <+: walk (place ++ []) steps := prefix_walk h
  rwa [append_nil] at below

theorem inside_of_contains {candidate parent : String}
    (h : targetScopeContains candidate parent = true)
    (unambiguous : targetScopeIsAmbiguousUri candidate = false)
    (below : climbsAbove candidate parent = false) : (locate candidate).Inside (locate parent) := by
  unfold targetScopeContains at h
  split at h
  · rename_i uri root parsed parsed'
    split at h
    · cases h
    rename_i same
    obtain ⟨scheme, authority⟩ := not_or.mp same
    simp only [locate, parsed, parsed']
    refine ⟨not_not.mp scheme, not_not.mp authority, ?_⟩
    rw [Bool.or_eq_true, beq_iff_eq, Option.any_eq_true] at h
    obtain whole | ⟨rest, starts, slash⟩ := h
    · exact whole ▸ prefix_rfl
    · obtain ⟨tail, split⟩ := components_of_stripPrefix starts (by simpa using slash)
      have level := path_of_ambiguous unambiguous parsed
      rw [split, mem_append, not_or] at level
      rw [split, walk_append]
      exact below_walk (climbs_of_no_up level.2 0)
  · cases h
  · cases h
  · rename_i parsed parsed'
    simp only [Bool.and_eq_true] at h
    obtain ⟨⟨absolute, absolute'⟩, starts⟩ := h
    obtain ⟨rest, split⟩ := List.isPrefixOf_iff_prefix.mp starts
    rw [climbsAbove, parsed, ← split, drop_left] at below
    simp only [locate, parsed, parsed', absolute, absolute', if_true]
    show walk [] (components parent.toList) <+: walk [] (components candidate.toList)
    rw [← split, walk_append]
    exact below_walk below

end Aegis.Goal
