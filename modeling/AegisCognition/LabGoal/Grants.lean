import AegisCognition.LabGoal.Access
import AegisCognition.LabGoal.Lineage
import Mathlib.Data.List.Dedup

/-!
# What a narrowed target grants

The next generation of a contract may only narrow its target, and a narrowed target should grant
nothing new. That is so where a root contains another one whenever it contains what lies below
it. On a POSIX host one kind of root does not: the path `/\server` is a directory there, and below
it are other directories, but next to a Windows root it is compared as the share of a server.
-/

namespace Aegis.LabGoal

open Foundation PathKind Windows List

/-! ### Scopes -/

section Scopes

variable {lib : Library} {path : String}

theorem isNormal_eq_cons {path : List Char} (h : Posix.IsNormal path) :
    ∃ rest, path = '/' :: rest ∧ rest.head? ≠ some '/' := by
  obtain ⟨names, named, rfl⟩ := h
  exact ⟨_, rfl, head?_intercalate fun name mem => (named name mem).1⟩

theorem eq_cons_of_startsWithDrive {slashes path : List Char}
    (h : startsWithDrive slashes path = true) :
    ∃ letter slash rest, path = letter :: ':' :: slash :: rest ∧ letter.isAlpha = true ∧
      slash ∈ slashes := by
  unfold startsWithDrive at h
  split at h
  · rename_i letter slash rest
    rw [Bool.and_eq_true] at h
    exact ⟨letter, slash, rest, rfl, h.1, by simpa using h.2⟩
  · cases h

/-- A Windows path starts with a drive or with two backslashes. -/
theorem eq_cons_of_isWindowsPath (h : isWindowsPath path = true) :
    (∃ letter rest, path.toList = letter :: ':' :: '\\' :: rest ∧ letter.isAlpha = true) ∨
      ∃ rest, path.toList = '\\' :: '\\' :: rest := by
  rw [isWindowsPath, Bool.or_eq_true, String.startsWith_string_iff] at h
  rcases h with drive | ⟨rest, unc⟩
  · obtain ⟨letter, slash, rest, eq, alpha, mem⟩ := eq_cons_of_startsWithDrive drive
    obtain rfl := mem_singleton.mp mem
    exact .inl ⟨letter, rest, eq, alpha⟩
  · exact .inr ⟨rest, unc.symm⟩

theorem isWindowsPath_of_slash {rest : List Char} (eq : path.toList = '/' :: rest) :
    isWindowsPath path = false := by
  rw [Bool.eq_false_iff]
  intro windows
  rcases eq_cons_of_isWindowsPath windows with ⟨letter, rest', eq', alpha⟩ | ⟨rest', eq'⟩
  · obtain rfl : letter = '/' := (List.cons.inj (eq'.symm.trans eq)).1
    exact absurd alpha (by decide)
  · exact absurd (List.cons.inj (eq'.symm.trans eq)).1 (by decide)

theorem isWindowsPath_of_isNormal (h : Posix.IsNormal path.toList) :
    isWindowsPath path = false := by
  obtain ⟨rest, eq, -⟩ := isNormal_eq_cons h
  exact isWindowsPath_of_slash eq

theorem ne_root_of_isUnc {path : List Char} (unc : Windows.IsUnc path) : path ≠ ['/'] := by
  rintro rfl
  obtain ⟨share, eq⟩ := unc
  cases eq

theorem IsScope.isAnchored (h : IsScope lib path) : Windows.IsAnchored path.toList := by
  have of_drive (letter : Char) (rest : List Char)
      (eq : path.toList = letter :: ':' :: '\\' :: rest) : Windows.IsAnchored path.toList :=
    isAnchored_of_drive (congrArg Windows.backslashed eq)
  rcases h with (windows | ⟨letter, rest, eq, -⟩) | normal
  · rcases eq_cons_of_isWindowsPath windows with ⟨letter, rest, eq, -⟩ | ⟨rest, eq⟩
    · exact of_drive letter rest eq
    · exact @isAnchored_of_separator _ ('\\' :: Windows.backslashed rest)
        (by simp [eq, Windows.backslashed])
  · exact of_drive letter rest eq
  · obtain ⟨rest, eq, -⟩ := isNormal_eq_cons normal
    exact @isAnchored_of_separator _ (Windows.backslashed rest)
      (by simp [eq, Windows.backslashed])

theorem IsScope.stable (h : IsScope lib path) : (ntKind lib).Stable path.toList :=
  h.isAnchored.stable _

/-- What the scopes of a POSIX host look like. -/
def IsPosixScope (path : String) : Prop :=
  isWindowsPath path = true ∨ Posix.IsNormal path.toList

theorem IsPosixScope.isScope (h : IsPosixScope path) : IsScope lib path :=
  h.imp_left .inl

theorem isWindowsPath_backslashed {value : String}
    (h : (startsWithDrive ['\\', '/'] value.toList || value.startsWith "\\\\" ||
      value.startsWith "//") = true) :
    isWindowsPath
      (String.ofList (value.toList.map fun c => if c = '/' then '\\' else c)) = true := by
  rw [Bool.or_eq_true, Bool.or_eq_true, String.startsWith_string_iff,
    String.startsWith_string_iff] at h
  rw [isWindowsPath, Bool.or_eq_true, String.startsWith_string_iff, String.toList_ofList]
  rcases h with (drive | ⟨rest, unc⟩) | ⟨rest, unc⟩
  · left
    obtain ⟨letter, slash, rest, eq, alpha, mem⟩ := eq_cons_of_startsWithDrive drive
    have other : letter ≠ '/' := by
      rintro rfl
      exact absurd alpha (by decide)
    have slash : (if slash = '/' then '\\' else slash) = '\\' := by
      rcases mem_pair.mp mem with rfl | rfl <;> rfl
    simp [eq, startsWithDrive, other, alpha, slash]
  · right
    rw [← unc, map_append]
    exact prefix_append _ _
  · right
    rw [← unc, map_append]
    exact prefix_append _ _

/-- A scope is a Windows path, or the normal form that the host has for an absolute path. -/
theorem FileScope.cases (library : LexicalLibrary lib) {value scope : String}
    (h : FileScope lib value scope) : isWindowsPath scope = true ∨
      value.startsWith "//" = false ∧ lib.isabs value = true ∧
        scope = lib.normcase (lib.normpath (lib.abspath value)) := by
  have none := uriScope_of_fileScope h
  simp only [FileScope, filesystemScope, none, bind, Except.bind, Option.isSome_none,
    Bool.false_eq_true, if_false] at h
  split at h
  · rename_i windows
    obtain rfl := Option.some.inj (Except.ok.inj h)
    exact .inl (library.ntNormalized _ (isWindowsPath_backslashed windows))
  · rename_i other
    rw [Bool.not_eq_true, Bool.or_eq_false_iff] at other
    split at h
    · cases h
    · rename_i absolute
      exact .inr ⟨other.2, by simpa using absolute, (Option.some.inj (Except.ok.inj h)).symm⟩

theorem PosixHost.isPosixScope (posix : PosixHost lib) {value scope : String}
    (h : FileScope lib value scope) : IsPosixScope scope := by
  refine (h.cases posix.toLexicalLibrary).imp_right ?_
  rintro ⟨noShare, absolute, rfl⟩
  rw [posix.isabs] at absolute
  rw [posix.normalized value absolute noShare, String.toList_ofList]
  exact Posix.isNormal_normalize _

theorem WindowsHost.isAbsolute (windows : WindowsHost lib) {value scope : String}
    (h : FileScope lib value scope) : Windows.IsAbsolute scope.toList := by
  rcases h.cases windows.toLexicalLibrary with drive | ⟨-, absolute, rfl⟩
  · refine (eq_cons_of_isWindowsPath drive).imp_left ?_
    rintro ⟨letter, rest, eq, alpha⟩
    refine ⟨letter, rest, eq, ?_⟩
    rintro rfl
    exact absurd alpha (by decide)
  · exact windows.normalized value absolute

/-! ### Containment of scopes -/

variable {candidate middle root : String}

theorem map_ofList_eq_some_iff {found : Option (List Char)} {text : String} :
    found.map String.ofList = some text ↔ found = some text.toList := by
  rw [Option.map_eq_some_iff]
  constructor
  · rintro ⟨chars, rfl, rfl⟩
    rw [String.toList_ofList]
  · rintro rfl
    exact ⟨_, rfl, String.ofList_toList⟩

theorem eq_join_of_commonpath (h : IsScope lib candidate)
    (common : (ntKind lib).commonpath candidate.toList root.toList = some root.toList) :
    ∃ count, root.toList = (ntKind lib).join ((Windows.split candidate.toList).cut count) :=
  (commonpath_eq_some_iff h.stable).mp common

theorem isWindowsPath_of_commonpath (h : IsScope lib candidate) (h' : IsPosixScope root)
    (common : (ntKind lib).commonpath candidate.toList root.toList = some root.toList) :
    isWindowsPath root = true := by
  obtain ⟨count, eq⟩ := eq_join_of_commonpath h common
  refine h'.resolve_right fun normal => ?_
  obtain ⟨rest, eq', -⟩ := isNormal_eq_cons normal
  exact not_mem_join _ _ count (eq ▸ eq' ▸ mem_cons_self)

/-- A scope is contained as Windows has it in a Windows path, and else as POSIX has it. -/
theorem covers_iff (posix : PosixHost lib) (h : IsPosixScope candidate) (h' : IsPosixScope root) :
    Covers lib candidate root ↔
      (isWindowsPath root = true ∧
        (ntKind lib).commonpath candidate.toList root.toList = some root.toList) ∨
      (Posix.IsNormal candidate.toList ∧ Posix.IsNormal root.toList ∧
        Posix.kind.commonpath candidate.toList root.toList = some root.toList) := by
  have nt := posix.ntCommonpath candidate root h.isScope h'.isScope
  rcases h' with windows | normal
  · rw [Covers, windows, Bool.or_true, if_pos rfl, nt, map_ofList_eq_some_iff]
    refine ⟨fun common => .inl ⟨rfl, common⟩, ?_⟩
    rintro (⟨-, common⟩ | ⟨-, normal, -⟩)
    · exact common
    · exact absurd windows (by simp [isWindowsPath_of_isNormal normal])
  · have other := isWindowsPath_of_isNormal normal
    rcases h with windows | normal'
    · rw [Covers, windows, Bool.true_or, if_pos rfl, nt, map_ofList_eq_some_iff]
      constructor
      · intro common
        have mixed := isWindowsPath_of_commonpath (.inl (.inl windows)) (.inr normal) common
        exact absurd mixed (by simp [other])
      · rintro (⟨mixed, -⟩ | ⟨normal', -⟩)
        · exact absurd mixed (by simp [other])
        · exact absurd windows (by simp [isWindowsPath_of_isNormal normal'])
    · rw [Covers, isWindowsPath_of_isNormal normal', other, Bool.or_false,
        if_neg Bool.false_ne_true, posix.commonpath _ _ normal' normal, map_ofList_eq_some_iff]
      simp [normal, normal']

/-- A POSIX path below a Windows root starts like one. -/
theorem isUnc_of_commonpath (h : Posix.IsNormal candidate.toList)
    (windows : isWindowsPath root = true)
    (common : (ntKind lib).commonpath candidate.toList root.toList = some root.toList) :
    Windows.IsUnc candidate.toList := by
  obtain ⟨rest, eq, other⟩ := isNormal_eq_cons h
  obtain ⟨count, joined⟩ := eq_join_of_commonpath (.inr h) common
  by_contra notUnc
  have single : Windows.splitroot (Windows.backslashed candidate.toList) =
      ([], ['\\'], Windows.backslashed rest) := by
    rw [eq]
    cases rest with
    | nil => rfl
    | cons c rest =>
        have notSlash : c ≠ '/' := fun same => other (by rw [same]; rfl)
        have notBackslash : c ≠ '\\' := by
          rintro rfl
          exact notUnc ⟨Windows.backslashed rest, by simp [eq, Windows.backslashed]⟩
        simp [Windows.backslashed, Windows.splitroot, notSlash, notBackslash]
  have names (name : List Char)
      (mem : name ∈ (pathNames '\\' (Windows.backslashed rest)).take count) :
      IsPathName '\\' name := (of_mem_pathNames (mem_of_mem_take mem)).1
  have front := head?_intercalate names
  rw [Windows.split, single] at joined
  change root.toList = '\\' ::
    ['\\'].intercalate ((pathNames '\\' (Windows.backslashed rest)).take count) at joined
  rcases eq_cons_of_isWindowsPath windows with ⟨letter, rest', eq', alpha⟩ | ⟨rest', eq'⟩
  · obtain rfl := (List.cons.inj (joined.symm.trans eq')).1
    exact absurd alpha (by decide)
  · rw [(List.cons.inj (joined.symm.trans eq')).2] at front
    exact front rfl

/-- Containment is transitive where the path in the middle has a root for Windows, too. -/
theorem Covers.trans (posix : PosixHost lib) (hc : IsPosixScope candidate)
    (hm : IsPosixScope middle) (hr : IsPosixScope root) (h : Covers lib candidate middle)
    (h' : Covers lib middle root)
    (rooted : isWindowsPath middle = true ∨ isWindowsPath root = false ∨
      (Windows.split middle.toList).root ≠ []) : Covers lib candidate root := by
  rw [covers_iff posix hc hm] at h
  rw [covers_iff posix hm hr] at h'
  rw [covers_iff posix hc hr]
  have stable : (ntKind lib).Stable candidate.toList := hc.isScope.stable
  rcases h' with ⟨windows, common'⟩ | ⟨normalM, normalR, common'⟩
  · refine .inl ⟨windows, ?_⟩
    rcases h with ⟨-, common⟩ | ⟨normalC, normalM, common⟩
    · exact commonpath_trans stable common common'
    · -- Both are POSIX paths below a share.
      have rooted : (Windows.split middle.toList).root ≠ [] := by
        rw [isWindowsPath_of_isNormal normalM, windows] at rooted
        simpa using rooted
      have unc := isUnc_of_commonpath normalM windows common'
      rcases normalC.eq_append_of_commonpath common (ne_root_of_isUnc unc) with same | ⟨rest, eq⟩
      · rwa [same]
      · obtain ⟨count, joined⟩ := eq_join_of_commonpath (.inr normalM) common'
        refine (commonpath_eq_some_iff stable).mpr
          ⟨min count (Windows.split middle.toList).names.length, ?_⟩
        show _ = (ntKind lib).join ((Windows.split candidate.toList).cut _)
        rw [joined, eq, split_append unc rooted, PathParts.cut_append]
  · refine .inr ?_
    rcases h with ⟨windows, -⟩ | ⟨normalC, -, common⟩
    · exact absurd windows (by simp [isWindowsPath_of_isNormal normalM])
    · exact ⟨normalC, normalR, commonpath_trans normalC.stable common common'⟩

/-- On a Windows host all scopes are compared alike. -/
theorem WindowsHost.covers_trans (windows : WindowsHost lib) {first second third : String}
    (hc : FileScope lib first candidate) (hm : FileScope lib second middle)
    (hr : FileScope lib third root) (h : Covers lib candidate middle)
    (h' : Covers lib middle root) : Covers lib candidate root := by
  simp only [Covers, windows.commonpath, ite_self] at h h' ⊢
  by_cases seen : IsScope lib candidate ∧ IsScope lib middle
  · by_cases seen' : IsScope lib middle ∧ IsScope lib root
    · rw [windows.ntCommonpath _ _ seen.1 seen.2, map_ofList_eq_some_iff] at h
      rw [windows.ntCommonpath _ _ seen'.1 seen'.2, map_ofList_eq_some_iff] at h'
      rw [windows.ntCommonpath _ _ seen.1 seen'.2, map_ofList_eq_some_iff]
      exact commonpath_trans seen.1.stable h h'
    · exact windows.unseen _ _ _ _ hm hr seen' h' ▸ h
  · exact windows.unseen _ _ _ _ hc hm seen h ▸ h'

end Scopes

/-! ### Roots -/

section Roots

variable {lib : Library} {roots nextRoots : List String}

def Allows (lib : Library) (roots : List String) (path : String) : Prop :=
  ∃ root ∈ roots, scopeContains lib path root = .ok true

/-- A POSIX path that Windows takes for a server, or for its share with nothing behind it. -/
def IsOpenShare (scope : String) : Prop :=
  scope.startsWith "/\\" = true ∧ (Windows.split scope.toList).root = []

/-- A root contains the share and what lies below it: it is a POSIX path that contains the share,
or it is the root of the share. -/
def KeepsShare (lib : Library) (next scope root : String) : Prop :=
  ∃ rootScope, FileScope lib root rootScope ∧
    (isWindowsPath rootScope = false ∧ scopeContains lib next root = .ok true ∨
      rootScope.toList = Windows.backslashed (scope.toList ++ ['/']) ∧
        (Windows.split rootScope.toList).root ≠ [])

/-- Every open share among the next roots is kept by one of the roots. -/
def KeepsShares (lib : Library) (roots nextRoots : List String) : Prop :=
  ∀ next ∈ nextRoots, ∀ scope, FileScope lib next scope → IsOpenShare scope →
    ∃ root ∈ roots, KeepsShare lib next scope root

theorem FileScope.unique {value first second : String} (h : FileScope lib value first)
    (h' : FileScope lib value second) : first = second :=
  Option.some.inj (Except.ok.inj (h.symm.trans h'))

theorem covers_of_scopeContains {candidate root scope : String}
    (h : scopeContains lib candidate root = .ok true) (located : FileScope lib candidate scope) :
    ∃ rootScope, FileScope lib root rootScope ∧ Covers lib scope rootScope := by
  rcases scopeContains_eq_ok_true_iff.mp h with
    ⟨_, _, parsed, -⟩ | ⟨first, second, own, other, covers⟩
  · rw [uriScope_of_fileScope located] at parsed
    cases parsed
  · exact ⟨second, other, own.unique located ▸ covers⟩

theorem scopeContains_of_covers {candidate root scope rootScope : String}
    (located : FileScope lib candidate scope) (located' : FileScope lib root rootScope)
    (h : Covers lib scope rootScope) : scopeContains lib candidate root = .ok true :=
  scopeContains_eq_ok_true_iff.mpr (.inr ⟨_, _, located, located', h⟩)

/-- What lies below the root of a share is below the share. -/
theorem covers_of_closed (posix : PosixHost lib) {candidate middle root : String}
    (hc : IsPosixScope candidate) (hr : IsPosixScope root)
    (unc : Windows.IsUnc middle.toList) (bare : (Windows.split middle.toList).root = [])
    (closed : root.toList = Windows.backslashed (middle.toList ++ ['/']))
    (rooted : (Windows.split root.toList).root ≠ []) {rest : List Char}
    (below : candidate.toList = middle.toList ++ '/' :: rest) : Covers lib candidate root := by
  have closes : (Windows.split (middle.toList ++ ['/'])).root ≠ [] := by
    rwa [closed, split_backslashed] at rooted
  have common : (ntKind lib).commonpath candidate.toList root.toList = some root.toList := by
    refine (commonpath_eq_some_iff hc.isScope.stable).mpr ⟨0, ?_⟩
    show _ = (ntKind lib).join ((Windows.split candidate.toList).cut 0)
    rw [below, split_append_of_closes unc bare closes, closed, backslashed_append]
    exact (append_nil _).symm
  exact (covers_iff posix hc hr).mpr
    (.inl ⟨isWindowsPath_of_commonpath hc.isScope hr common, common⟩)

theorem isOpenShare_of_isUnc {scope : String} (h : Posix.IsNormal scope.toList)
    (unc : Windows.IsUnc scope.toList) : scope.startsWith "/\\" = true := by
  obtain ⟨rest, eq, other⟩ := isNormal_eq_cons h
  obtain ⟨share, eq'⟩ := unc
  rw [eq] at eq'
  rw [String.startsWith_string_iff, eq]
  cases rest with
  | nil => cases eq'
  | cons c rest =>
      have backslash : (if c = '/' then '\\' else c) = '\\' :=
        (List.cons.inj (List.cons.inj eq').2).1
      split at backslash
      · rename_i slash
        exact absurd (by rw [slash]; rfl) other
      · exact ⟨rest, by rw [backslash]; rfl⟩

/-- The next roots allow nothing new if they allow no file path that is new. -/
theorem allows_of_narrowed {path : String} (narrowed : ∀ next ∈ nextRoots, Allows lib roots next)
    (files : ∀ next ∈ nextRoots, ∀ root ∈ roots, ∀ scope nextScope rootScope,
      FileScope lib path scope → FileScope lib next nextScope → FileScope lib root rootScope →
      Covers lib scope nextScope → Covers lib nextScope rootScope → Allows lib roots path)
    (h : Allows lib nextRoots path) : Allows lib roots path := by
  obtain ⟨next, mem, contained⟩ := h
  obtain ⟨root, mem', contained'⟩ := narrowed next mem
  rcases scopeContains_eq_ok_true_iff.mp contained with
    ⟨first, second, parsed, parsed', within⟩ | ⟨scope, nextScope, located, nextScoped, covers⟩
  · rcases scopeContains_eq_ok_true_iff.mp contained' with
      ⟨second', third, parsed'', parsed₃, within'⟩ | ⟨_, _, located, -⟩
    · obtain rfl := Option.some.inj (Except.ok.inj (parsed'.symm.trans parsed''))
      exact ⟨root, mem', scopeContains_eq_ok_true_iff.mpr
        (.inl ⟨first, third, parsed, parsed₃, within.trans within'⟩)⟩
    · rw [uriScope_of_fileScope located] at parsed'
      cases parsed'
  · obtain ⟨rootScope, rootScoped, covers'⟩ := covers_of_scopeContains contained' nextScoped
    exact files next mem root mem' _ _ _ located nextScoped rootScoped covers covers'

/-- On a POSIX host the next roots allow nothing new as long as the open shares among them are
kept. -/
theorem PosixHost.allows_of_keepsShares (posix : PosixHost lib)
    (narrowed : ∀ next ∈ nextRoots, Allows lib roots next)
    (keeps : KeepsShares lib roots nextRoots) {path : String} (h : Allows lib nextRoots path) :
    Allows lib roots path := by
  refine allows_of_narrowed narrowed ?_ h
  intro next mem root mem' scope nextScope rootScope located nextScoped rootScoped covers covers'
  have hc := posix.isPosixScope located
  have hn := posix.isPosixScope nextScoped
  have hr := posix.isPosixScope rootScoped
  by_cases rooted : isWindowsPath nextScope = true ∨ isWindowsPath rootScope = false ∨
      (Windows.split nextScope.toList).root ≠ []
  · exact ⟨root, mem', scopeContains_of_covers located rootScoped
      (covers.trans posix hc hn hr covers' rooted)⟩
  · simp only [not_or, Bool.not_eq_true, Bool.not_eq_false, not_not] at rooted
    obtain ⟨notWindows, windows, bare⟩ := rooted
    have normal := hn.resolve_left (by simp [notWindows])
    obtain ⟨-, common'⟩ : isWindowsPath rootScope = true ∧ _ :=
      ((covers_iff posix hn hr).mp covers').resolve_right fun ⟨_, normal', _⟩ =>
        absurd windows (by simp [isWindowsPath_of_isNormal normal'])
    have unc := isUnc_of_commonpath normal windows common'
    obtain ⟨kept, mem'', keptScope, keptScoped, contains | ⟨closed, rooted⟩⟩ :=
      keeps next mem nextScope nextScoped ⟨isOpenShare_of_isUnc normal unc, bare⟩
    · obtain ⟨keptScope', keptScoped', covers''⟩ :=
        covers_of_scopeContains contains.2 nextScoped
      obtain rfl := keptScoped.unique keptScoped'
      have hk := posix.isPosixScope keptScoped
      exact ⟨kept, mem'', scopeContains_of_covers located keptScoped
        (covers.trans posix hc hn hk covers'' (.inr (.inl contains.1)))⟩
    · obtain ⟨normalC, -, common⟩ := ((covers_iff posix hc hn).mp covers).resolve_left
        fun both => absurd both.1 (by simp [notWindows])
      rcases normalC.eq_append_of_commonpath common (ne_root_of_isUnc unc) with same | ⟨rest, eq⟩
      · obtain rfl := String.toList_inj.mp same
        exact ⟨root, mem', scopeContains_of_covers located rootScoped covers'⟩
      · exact ⟨kept, mem'', scopeContains_of_covers located keptScoped
          (covers_of_closed posix hc (posix.isPosixScope keptScoped) unc bare closed rooted eq)⟩

/-- On a Windows host no scope is a POSIX path. -/
theorem WindowsHost.keepsShares (windows : WindowsHost lib) : KeepsShares lib roots nextRoots := by
  intro next _ scope located share
  obtain ⟨rest, start⟩ := String.startsWith_string_iff.mp share.1
  rcases windows.isAbsolute located with ⟨letter, rest', eq, other⟩ | ⟨rest', eq⟩
  · exact absurd (List.cons.inj (start.trans eq)).1.symm other
  · exact absurd (List.cons.inj (start.trans eq)).1 (by decide)

/-- On a Windows host narrower roots allow nothing new. -/
theorem WindowsHost.allows_of_narrowed (windows : WindowsHost lib) {path : String}
    (narrowed : ∀ next ∈ nextRoots, Allows lib roots next) (h : Allows lib nextRoots path) :
    Allows lib roots path := by
  refine LabGoal.allows_of_narrowed narrowed ?_ h
  intro next _ root mem scope nextScope rootScope located nextScoped rootScoped covers covers'
  exact ⟨root, mem, scopeContains_of_covers located rootScoped
    (windows.covers_trans located nextScoped rootScoped covers covers')⟩

/-! ### A name below an open share -/

theorem exists_longer (lib : Library) (roots : List String) : ∃ length, ∀ root ∈ roots, ∀ scope,
    FileScope lib root scope → scope.toList.length < length := by
  induction roots with
  | nil => exact ⟨0, forall_mem_nil _⟩
  | cons root roots ih =>
      obtain ⟨length, longer⟩ := ih
      by_cases some : ∃ scope, FileScope lib root scope
      · obtain ⟨scope, located⟩ := some
        refine ⟨max length (scope.toList.length + 1), forall_mem_cons.mpr ⟨?_, ?_⟩⟩
        · intro scope' located'
          obtain rfl := located.unique located'
          omega
        · intro other mem scope' located'
          have := longer other mem scope' located'
          omega
      · exact ⟨length, forall_mem_cons.mpr
          ⟨fun scope located => absurd ⟨scope, located⟩ some, longer⟩⟩

/-- The path with a name of so many letters, and one more, below the scope. -/
def nameBelow (scope : String) (length : Nat) : String :=
  String.ofList (scope.toList ++ '/' :: List.replicate (length + 1) 'x')

variable {scope : String} {length : Nat}

theorem toList_nameBelow : (nameBelow scope length).toList =
    scope.toList ++ '/' :: List.replicate (length + 1) 'x' :=
  String.toList_ofList

theorem isPathName_letters {separator : Char} (h : separator ≠ 'x') :
    IsPathName separator (List.replicate (length + 1) 'x') where
  nonempty := nofun
  noDot := by simp [replicate_succ]
  unseparated := fun mem => h (eq_of_mem_replicate mem)

theorem letters_ne_up : List.replicate (length + 1) 'x' ≠ ['.', '.'] := by
  simp [replicate_succ]

theorem strip_nameBelow (h : Posix.IsNormal scope.toList) :
    strip (nameBelow scope length) = nameBelow scope length := by
  obtain ⟨rest, eq, -⟩ := isNormal_eq_cons h
  have front : (nameBelow scope length).toList.dropWhile isSpace =
      (nameBelow scope length).toList := by
    rw [toList_nameBelow, eq, cons_append]
    exact dropWhile_cons_of_neg (by decide)
  have last : (nameBelow scope length).toList =
      (scope.toList ++ '/' :: List.replicate length 'x') ++ ['x'] := by
    rw [toList_nameBelow, replicate_succ']
    simp
  rw [strip, front, last, rdropWhile_concat_neg _ _ _ (by decide), ← last,
    String.ofList_toList]

theorem fileScope_nameBelow (posix : PosixHost lib) (h : Posix.IsNormal scope.toList)
    (start : scope.startsWith "/\\" = true) :
    FileScope lib (nameBelow scope length) (nameBelow scope length) := by
  obtain ⟨rest, eq⟩ := (String.startsWith_string_iff.mp start)
  have chars : (nameBelow scope length).toList =
      '/' :: '\\' :: (rest ++ '/' :: List.replicate (length + 1) 'x') := by
    rw [toList_nameBelow, ← eq]
    rfl
  have below : scope.toList ≠ ['/'] := by
    rw [← eq]
    simp
  have prefixes (front : String) : (nameBelow scope length).startsWith front = true ↔
      front.toList <+: '/' :: '\\' :: (rest ++ '/' :: List.replicate (length + 1) 'x') := by
    rw [String.startsWith_string_iff, chars]
  have slash := (prefixes "/").mpr ⟨_, rfl⟩
  have notSlashes : (nameBelow scope length).startsWith "//" = false := by
    rw [Bool.eq_false_iff, Ne, prefixes]
    rintro ⟨tail, same⟩
    simp at same
  have notBackslashes : (nameBelow scope length).startsWith "\\\\" = false := by
    rw [Bool.eq_false_iff, Ne, prefixes]
    rintro ⟨tail, same⟩
    simp at same
  obtain ⟨parsed, url, scheme⟩ := posix.urlparse _ ((prefixes "/\\").mpr ⟨_, rfl⟩)
  have none : uriScope lib (nameBelow scope length) = .ok none := by
    have noDrive : hasDriveShape (nameBelow scope length).toList = false := by
      rw [chars]
      rfl
    simp [uriScope, noDrive, parseUrl, url, okOr, scheme, bind, Except.bind]
  have noDrive : startsWithDrive ['\\', '/'] (nameBelow scope length).toList = false := by
    rw [chars]
    rfl
  have normal : Posix.IsNormal (nameBelow scope length).toList := by
    rw [toList_nameBelow]
    exact h.append below (isPathName_letters (by decide)) letters_ne_up
  simp only [FileScope, filesystemScope, none, noDrive, notSlashes, notBackslashes, posix.isabs,
    slash, posix.normalized _ slash notSlashes, normal.normalize_eq, String.ofList_toList, bind,
    Except.bind, Option.isSome_none, Bool.false_eq_true, if_false, Bool.or_self, Bool.not_true]

/-- Where the next roots of a POSIX host allow nothing new, the open shares among them are
kept. -/
theorem PosixHost.keepsShares_of_allows (posix : PosixHost lib)
    (h : ∀ path, path ≠ "" → strip path = path → Allows lib nextRoots path →
      Allows lib roots path) : KeepsShares lib roots nextRoots := by
  intro next mem scope located share
  have hn := posix.isPosixScope located
  obtain ⟨rest, eq⟩ := String.startsWith_string_iff.mp share.1
  have normal := hn.resolve_left (by simp [isWindowsPath_of_slash eq.symm])
  have unc : Windows.IsUnc scope.toList := ⟨Windows.backslashed rest, by rw [← eq]; rfl⟩
  have below := ne_root_of_isUnc unc
  obtain ⟨length, longer⟩ := exists_longer lib roots
  have located' := @fileScope_nameBelow lib scope length posix normal share.1
  have hc := posix.isPosixScope located'
  have above := fun root => @Posix.IsNormal.commonpath_append_iff _ root normal below
    (List.replicate (length + 1) 'x') (isPathName_letters (by decide)) letters_ne_up
  have normalC : Posix.IsNormal (nameBelow scope length).toList := by
    rw [toList_nameBelow]
    exact normal.append below (isPathName_letters (by decide)) letters_ne_up
  have allowed : Allows lib nextRoots (nameBelow scope length) := by
    refine ⟨next, mem, scopeContains_of_covers located' located ?_⟩
    refine (covers_iff posix hc hn).mpr (.inr ⟨normalC, normal, ?_⟩)
    rw [toList_nameBelow, above]
    exact .inr normal.commonpath_self
  have long (root : String) (mem : root ∈ roots) (rootScope : String)
      (rootLocated : FileScope lib root rootScope) (front : List Char) :
      rootScope.toList ≠ front ++ List.replicate (length + 1) 'x' := by
    intro eq
    have short := longer root mem rootScope rootLocated
    rw [eq, length_append, length_replicate] at short
    omega
  have nonempty : nameBelow scope length ≠ "" := by
    rw [Ne, ← String.toList_inj, toList_nameBelow]
    simp
  obtain ⟨root, mem', contained⟩ := h _ nonempty (strip_nameBelow normal) allowed
  obtain ⟨rootScope, rootLocated, covers⟩ := covers_of_scopeContains contained located'
  have hr := posix.isPosixScope rootLocated
  refine ⟨root, mem', rootScope, rootLocated, ?_⟩
  rcases (covers_iff posix hc hr).mp covers with ⟨windows, common⟩ | ⟨-, normalR, common⟩
  · right
    have letters : Windows.backslashed (List.replicate (length + 1) 'x') =
        List.replicate (length + 1) 'x' :=
      backslashed_eq_self fun mem => absurd (eq_of_mem_replicate mem) (by decide)
    obtain ⟨count, joined⟩ := eq_join_of_commonpath (.inr normalC) common
    rw [toList_nameBelow] at joined
    by_cases stays : (Windows.split (scope.toList ++ ['/'])).root = []
    · -- The name is part of the share, and the root would be the whole path.
      have unseparated : '\\' ∉ Windows.backslashed (List.replicate (length + 1) 'x') := by
        rw [letters]
        exact (isPathName_letters (by decide)).unseparated
      rw [split_append_of_open unc stays unseparated, backslashed_append, letters] at joined
      refine absurd ?_ (long root mem' rootScope rootLocated
        (Windows.backslashed scope.toList ++ ['\\']))
      rw [joined]
      simp [PathKind.join, PathParts.cut]
    · rw [split_append_of_closes unc share.2 stays, letters,
        pathNames_of_isPathName (isPathName_letters (by decide))] at joined
      cases count with
      | zero =>
          have closed : rootScope.toList = Windows.backslashed (scope.toList ++ ['/']) := by
            rw [joined, backslashed_append]
            exact append_nil _
          refine ⟨closed, ?_⟩
          rwa [closed, split_backslashed]
      | succ count =>
          refine absurd ?_ (long root mem' rootScope rootLocated
            (Windows.backslashed scope.toList ++ ['\\']))
          rw [joined]
          simp [PathKind.join, PathParts.cut]
  · left
    rw [toList_nameBelow, above] at common
    rcases common with whole | common
    · refine absurd ?_ (long root mem' rootScope rootLocated (scope.toList ++ ['/']))
      rw [whole, append_assoc, singleton_append]
    · exact ⟨isWindowsPath_of_isNormal normalR, scopeContains_of_covers located rootLocated
        ((covers_iff posix hn hr).mpr (.inr ⟨normal, normalR, common⟩))⟩

end Roots

/-! ### Targets -/

section Targets

variable {lib : Library}

theorem uriScope_of_validate {label : String} {entries : List String} {done : Unit}
    (h : validateUriScopeRoots lib label entries = .ok done) :
    ∀ entry ∈ entries, ∃ scope, uriScope lib entry = .ok scope := by
  induction entries with
  | nil => exact forall_mem_nil _
  | cons entry entries ih =>
      rw [validateUriScopeRoots] at h
      split at h
      · rename_i drive
        exact forall_mem_cons.mpr ⟨⟨none, by rw [uriScope, if_pos drive]⟩, ih h⟩
      · rename_i noDrive
        obtain ⟨parsed, url, h⟩ := bind_eq_ok_iff.mp h
        split at h
        · rename_i scheme
          have none : uriScope lib entry = .ok none := by
            simp [uriScope, noDrive, url, scheme, bind, Except.bind]
          exact forall_mem_cons.mpr ⟨⟨_, none⟩, ih h⟩
        · simp only [bind_eq_ok_iff] at h
          obtain ⟨scope, parsed, -, -, -, -, -, -, rest⟩ := h
          exact forall_mem_cons.mpr ⟨⟨scope, parsed⟩, ih rest⟩

namespace TargetDescriptor

variable {target next : TargetDescriptor lib} {path effectClass : String}

theorem mem_rootsFor {effect root : String} (h : root ∈ target.rootsFor effect) :
    root ∈ target.readRoots.1 ∨ root ∈ target.writeRoots.1 := by
  unfold rootsFor at h
  split_ifs at h
  · exact .inr h
  · exact mem_append.mp h
  · exact .inl h
  · cases h

theorem allowsPath_eq_ok_true_iff : target.allowsPath path effectClass = .ok true ↔
    strip path ≠ "" ∧
      Allows lib (target.rootsFor (lib.lower (strip effectClass))) (strip path) := by
  unfold allowsPath
  split
  · rename_i blank
    exact ⟨nofun, fun allowed => absurd blank allowed.1⟩
  · rename_i named
    refine ⟨fun found => ⟨named, exists_of_anyM_eq_ok found⟩, fun ⟨_, allowed⟩ => ?_⟩
    obtain ⟨root, mem, contained⟩ := allowed
    obtain ⟨scope, parsed⟩ := uriScope_of_scopeContains contained
    refine anyM_eq_ok_of_exists (fun other mem => ?_) ⟨root, mem, contained⟩
    obtain ⟨scope', parsed'⟩ : ∃ scope, uriScope lib other = .ok scope :=
      (mem_rootsFor mem).elim (uriScope_of_validate target.readScopes other)
        (uriScope_of_validate target.writeScopes other)
    exact scopeContains_total parsed parsed'

/-- Two targets compared by what they allow on each of their lists. -/
theorem allowsPath_mono_iff (library : LexicalLibrary lib) :
    (∀ path effectClass, next.allowsPath path effectClass = .ok true →
      target.allowsPath path effectClass = .ok true) ↔
    (∀ path, strip path ≠ "" → Allows lib next.readRoots (strip path) →
      Allows lib target.readRoots (strip path)) ∧
    ∀ path, strip path ≠ "" → Allows lib next.writeRoots (strip path) →
      Allows lib target.writeRoots (strip path) := by
  simp only [allowsPath_eq_ok_true_iff]
  constructor
  · intro mono
    have reads : lib.lower (strip "read_only") = "read_only" := by
      rw [show strip "read_only" = "read_only" by decide]
      exact library.lower _ (by decide)
    have writes : lib.lower (strip "state_write") = "state_write" := by
      rw [show strip "state_write" = "state_write" by decide]
      exact library.lower _ (by decide)
    refine ⟨fun path named allowed => ?_, fun path named allowed => ?_⟩
    · have read := (mono path "read_only" ⟨named, by rwa [reads]⟩).2
      rwa [reads] at read
    · have write := (mono path "state_write" ⟨named, by rwa [writes]⟩).2
      rwa [writes] at write
  · rintro ⟨read, write⟩ path effectClass ⟨named, root, mem, contained⟩
    refine ⟨named, ?_⟩
    unfold rootsFor at mem ⊢
    split_ifs at mem ⊢
    · exact write path named ⟨root, mem, contained⟩
    · rcases mem_append.mp mem with mem | mem
      · obtain ⟨kept, mem', contained'⟩ := read path named ⟨root, mem, contained⟩
        exact ⟨kept, mem_append_left _ mem', contained'⟩
      · obtain ⟨kept, mem', contained'⟩ := write path named ⟨root, mem, contained⟩
        exact ⟨kept, mem_append_right _ mem', contained'⟩
    · exact read path named ⟨root, mem, contained⟩
    · cases mem

theorem mem_networkHosts {host : String} : host ∈ target.networkHosts ↔
    ∃ entry ∈ target.networkAllowlist.1, grantedHost lib entry = some host := by
  rw [networkHosts, sortTexts, (perm_insertionSort _ _).mem_iff, mem_dedup,
    mem_filterMap]

theorem allowsNetworkHost_mono (narrowed : next.networkAllowlist.1 ⊆ target.networkAllowlist.1)
    {host : String} (h : next.allowsNetworkHost host = true) :
    target.allowsNetworkHost host = true := by
  unfold allowsNetworkHost at h ⊢
  split at h
  · cases h
  · rename_i named
    rw [if_neg named, contains_iff_mem, mem_networkHosts]
    rw [contains_iff_mem, mem_networkHosts] at h
    obtain ⟨entry, mem, granted⟩ := h
    exact ⟨entry, narrowed mem, granted⟩

end TargetDescriptor

variable {contract next : GoalContract lib} {args : GoalContract.EvolveArguments lib}

theorem target_of_new {args : ContractArguments lib} (h : GoalContract.new args = .ok contract) :
    contract.target = args.target := by
  simp only [GoalContract.new, bind_eq_ok_iff] at h
  obtain ⟨_, -, _, -, _, -, scope, -, nonGoals, -, _, -, _, -, _, -, _, -, _, -, _, -,
    _, -, _, -, _, -, _, -, _, -, _, -, done⟩ := h
  cases done
  rfl

theorem target_of_evolve (h : contract.evolve args = .ok next) :
    next.target = args.target.getD contract.target := by
  simp only [GoalContract.evolve, bind_eq_ok_iff] at h
  obtain ⟨_, -, _, -, _, -, _, -, _, -, _, -, _, -, _, -, built⟩ := h
  exact target_of_new built

theorem narrowed_of_evolve (bound : contract.target.isBound = true)
    (h : contract.evolve args = .ok next) (field : TargetField) :
    targetValuesAreSubset lib field (field.values next.target.toTargetFields)
      (field.values contract.target.toTargetFields) = .ok true := by
  have target := target_of_evolve h
  simp only [GoalContract.evolve, bind_eq_ok_iff] at h
  obtain ⟨_, -, _, -, _, -, _, -, _, -, _, -, _, -, _, narrowed, -⟩ := h
  rw [← target, evolveTarget, if_pos bound] at narrowed
  simp only [bind_eq_ok_iff] at narrowed
  obtain ⟨_, -, _, -, narrowed⟩ := narrowed
  have mem : field ∈ TargetField.all := by cases field <;> decide
  have checked := forM_eq_ok_iff.mp narrowed field mem
  obtain ⟨isSubset, compared, kept⟩ := bind_eq_ok_iff.mp checked
  rw [refuseWhen_eq_ok_iff, Bool.not_eq_false] at kept
  rwa [kept] at compared

/-- What the successor of a bound target grants, the target granted, exactly if the open shares
among the roots of the successor are kept. -/
theorem narrowed_target_grants_iff (host : PosixHost lib ∨ WindowsHost lib)
    (bound : contract.target.isBound = true) (h : contract.evolve args = .ok next) :
    ((∀ path effectClass, next.target.allowsPath path effectClass = .ok true →
        contract.target.allowsPath path effectClass = .ok true) ∧
      ∀ name, next.target.allowsNetworkHost name = true →
        contract.target.allowsNetworkHost name = true) ↔
    KeepsShares lib contract.target.readRoots next.target.readRoots ∧
      KeepsShares lib contract.target.writeRoots next.target.writeRoots := by
  have narrowed := narrowed_of_evolve bound h
  have contained (field : TargetField) (isScope : field.isScope = true) :
      ∀ root ∈ field.values next.target.toTargetFields,
        Allows lib (field.values contract.target.toTargetFields) root := by
    have compared := narrowed field
    rw [targetValuesAreSubset, if_pos isScope] at compared
    exact fun root mem => exists_of_anyM_eq_ok (forall_of_allM_eq_ok compared root mem)
  have hosts : next.target.networkAllowlist.1 ⊆ contract.target.networkAllowlist.1 := by
    have compared := Except.ok.inj (narrowed .networkAllowlist)
    intro entry mem
    exact contains_iff_mem.mp (all_eq_true.mp compared entry mem)
  rw [TargetDescriptor.allowsPath_mono_iff (host.elim (·.toLexicalLibrary) (·.toLexicalLibrary)),
    and_iff_left fun name => TargetDescriptor.allowsNetworkHost_mono hosts]
  have lists (roots nextRoots : List String)
      (narrowed : ∀ root ∈ nextRoots, Allows lib roots root) :
      (∀ path, strip path ≠ "" → Allows lib nextRoots (strip path) →
        Allows lib roots (strip path)) ↔ KeepsShares lib roots nextRoots := by
    rcases host with posix | windows
    · constructor
      · intro mono
        refine posix.keepsShares_of_allows fun path named stripped allowed => ?_
        have kept := mono path (stripped.symm ▸ named) (stripped.symm ▸ allowed)
        rwa [stripped] at kept
      · exact fun keeps path _ allowed => posix.allows_of_keepsShares narrowed keeps allowed
    · exact iff_of_true (fun path _ allowed => windows.allows_of_narrowed narrowed allowed)
        windows.keepsShares
  exact and_congr (lists _ _ (contained .readRoots rfl)) (lists _ _ (contained .writeRoots rfl))

end Targets

/-! ### A directory, a share and a drive -/

def ntCommonpath (first second : String) : Option String :=
  ((Windows.kind fun text => text.map Char.toLower).commonpath first.toList second.toList).map
    String.ofList

/-- A POSIX host, for texts without the delimiters of a URL. The digest is that of the contract
below. -/
def posixLibrary : Library :=
  { plainLibrary with
    urlparse text := some ⟨"", "", text, "", "", none, none, none, some none⟩
    ntCommonpath
    abspath path := String.ofList (Posix.normalize path.toList)
    commonpath first second :=
      (Posix.kind.commonpath first.toList second.toList).map String.ofList
    blake3 _ := .ofNat 0x3a7bb2b19a21687013381750988c356a84c8e0a7eb82ac446ff69ea07e945851 }

/-- A Windows host, for texts without the delimiters of a URL and paths in their normal form. -/
def windowsLibrary : Library :=
  { posixLibrary with
    isabs path :=
      match Windows.backslashed path.toList with
      | _ :: ':' :: '\\' :: _ => true
      | '\\' :: '\\' :: _ => true
      | _ => false
    abspath path := String.ofList (Windows.backslashed path.toList)
    commonpath := ntCommonpath
    blake3 _ := .ofNat 0xadae364cccc6c94ccefff35773dfe984099d6fdd26d911a84b42e3d11f592621 }

theorem posixLibrary_isLexical : LexicalLibrary posixLibrary where
  lower word small := by
    have same (c : Char) (mem : c ∈ word.toList) : c.toLower = c := by
      have small := all_eq_true.mp small c mem
      delta Char.toLower
      refine dif_neg fun upper => ?_
      rcases Bool.or_eq_true_iff.mp small with lower | line
      · delta Char.isLower at lower
        simp only [Bool.and_eq_true, decide_eq_true_eq] at lower
        exact absurd (UInt32.le_trans lower.1 upper.2) (by decide)
      · rw [beq_iff_eq.mp line] at upper
        exact absurd upper.2 (by decide)
    show String.ofList (word.toList.map Char.toLower) = word
    rw [map_congr_left same, map_id', String.ofList_toList]
  urlparse path _ := ⟨_, rfl, rfl⟩
  ntNormalized path windows := windows
  ntCommonpath first second _ _ := by
    have fold : (fun text => (posixLibrary.lower (String.ofList text)).toList) =
        fun text : List Char => text.map Char.toLower := by
      funext text
      show (String.ofList ((String.ofList text).toList.map Char.toLower)).toList = _
      rw [String.toList_ofList, String.toList_ofList]
    rw [ntKind, fold]
    rfl

theorem posixLibrary_isPosix : PosixHost posixLibrary where
  toLexicalLibrary := posixLibrary_isLexical
  isabs _ := rfl
  normalized _ _ _ := rfl
  commonpath _ _ _ _ := rfl

theorem windowsLibrary_isAbsolute {path : String} (h : windowsLibrary.isabs path = true) :
    Windows.IsAbsolute (Windows.backslashed path.toList) := by
  have noSlash := not_mem_backslashed path.toList
  simp only [windowsLibrary] at h
  split at h
  · rename_i letter rest eq
    refine .inl ⟨letter, rest, eq, ?_⟩
    rintro rfl
    exact noSlash (eq ▸ mem_cons_self)
  · rename_i rest eq
    exact .inr ⟨rest, eq⟩
  · cases h

theorem windowsLibrary_isWindows : WindowsHost windowsLibrary := by
  have library : LexicalLibrary windowsLibrary :=
    { lower := posixLibrary_isLexical.lower
      urlparse := posixLibrary_isLexical.urlparse
      ntNormalized := posixLibrary_isLexical.ntNormalized
      ntCommonpath := posixLibrary_isLexical.ntCommonpath }
  have normalized (path : String) (absolute : windowsLibrary.isabs path = true) :
      Windows.IsAbsolute (windowsLibrary.normcase
        (windowsLibrary.normpath (windowsLibrary.abspath path))).toList := by
    show Windows.IsAbsolute (String.ofList (Windows.backslashed path.toList)).toList
    rw [String.toList_ofList]
    exact windowsLibrary_isAbsolute absolute
  have seen {path scope : String} (located : FileScope windowsLibrary path scope) :
      IsScope windowsLibrary scope := by
    rcases located.cases library with windows | ⟨-, absolute, rfl⟩
    · exact .inl (.inl windows)
    · rcases normalized path absolute with ⟨letter, rest, eq, -⟩ | ⟨rest, eq⟩
      · exact .inl (.inr ⟨letter, rest, eq, by simp [windowsLibrary, posixLibrary, plainLibrary]⟩)
      · refine .inl (.inl ?_)
        rw [isWindowsPath, Bool.or_eq_true, String.startsWith_string_iff, eq]
        exact .inr ⟨rest, rfl⟩
  exact
    { library with
      normalized
      commonpath := rfl
      unseen := fun _ _ _ _ located located' apart =>
        absurd ⟨seen located, seen located'⟩ apart }

/-- The repository with these roots to read. -/
def readable {lib : Library} (readRoots : StringSequence)
    (readScopes : validateUriScopeRoots lib "target read_roots" readRoots = .ok ())
    (fits : GoalContractLimits.default.validateWire lib.floatRepr
      (TargetFields.toDict { repository.toTargetFields with readRoots }) = .ok ()) :
    TargetDescriptor lib :=
  { repository.toTargetFields with
    readRoots, readScopes, fits
    writeScopes := rfl
    effectEntries := rfl }

def shareTarget : TargetDescriptor posixLibrary :=
  readable ⟨["/repo", "\\\\srv"], by decide⟩ (by decide +kernel) (by decide +kernel)

def shareContract : GoalContract posixLibrary :=
  { repair with
    objective := ⟨"Repair", by decide⟩
    target := shareTarget
    acceptance := []
    ordered := by decide
    fits := by decide +kernel }

section Retarget

variable {lib : Library}

/-- The next generation with this target. -/
def retarget (target : TargetDescriptor lib) : GoalContract.EvolveArguments lib where
  expectedGeneration := 1
  authorId := "lab"
  effectiveEpoch := 1
  reason := "review"
  objective := none
  target := some target
  acceptance := none
  scope := none
  nonGoals := none

theorem exists_evolved {contract : GoalContract lib} {target : TargetDescriptor lib}
    (h : (contract.evolve (retarget target)).toOption.isSome = true) :
    ∃ next, contract.evolve (retarget target) = .ok next ∧ next.target = target := by
  cases result : contract.evolve (retarget target) with
  | ok next => exact ⟨next, rfl, target_of_evolve result⟩
  | error e => simp [result, Except.toOption] at h

end Retarget

/-- A directory of the repository. -/
def inputTarget : TargetDescriptor posixLibrary :=
  readable ⟨["/repo/input"], by decide⟩ (by decide +kernel) (by decide +kernel)

/-- A directory whose name starts with a backslash. -/
def directoryTarget : TargetDescriptor posixLibrary :=
  readable ⟨["/\\srv"], by decide⟩ (by decide +kernel) (by decide +kernel)

/-- The drive `1:`, whose name is no letter. -/
def driveTarget : TargetDescriptor windowsLibrary :=
  readable ⟨["1:\\repo"], by decide⟩ (by decide +kernel) (by decide +kernel)

def driveContract : GoalContract windowsLibrary :=
  { shareContract with
    target := driveTarget
    fits := by decide +kernel }

def driveInputTarget : TargetDescriptor windowsLibrary :=
  readable ⟨["1:\\repo\\input"], by decide⟩ (by decide +kernel) (by decide +kernel)

/-- What the narrower target grants, the contract has granted, on either host. -/
theorem input_grants_nothing_new :
    (∃ next, shareContract.evolve (retarget inputTarget) = .ok next ∧
      next.target.allowsPath "/repo/input/a" "read_only" = .ok true ∧
      ∀ path effectClass, next.target.allowsPath path effectClass = .ok true →
        shareContract.target.allowsPath path effectClass = .ok true) ∧
    ∃ next, driveContract.evolve (retarget driveInputTarget) = .ok next ∧
      next.target.allowsPath "1:\\repo\\input\\a" "read_only" = .ok true ∧
      ∀ path effectClass, next.target.allowsPath path effectClass = .ok true →
        driveContract.target.allowsPath path effectClass = .ok true := by
  constructor
  · obtain ⟨next, evolved, target⟩ :=
      @exists_evolved _ shareContract inputTarget (by decide +kernel)
    refine ⟨next, evolved, by rw [target]; decide +kernel, ?_⟩
    refine ((narrowed_target_grants_iff (.inl posixLibrary_isPosix) (by decide) evolved).mpr ?_).1
    have noWrites : next.target.writeRoots.1 = [] := by
      rw [target]
      rfl
    refine ⟨fun root mem scope located share => ?_, by simp [KeepsShares, noWrites]⟩
    rw [target] at mem
    obtain rfl := mem_singleton.mp mem
    have input : FileScope posixLibrary "/repo/input" "/repo/input" := by
      unfold FileScope
      decide +kernel
    obtain rfl := located.unique input
    exact absurd share.1 (by decide +kernel)
  · have derived : ∃ next, driveContract.evolve (retarget driveInputTarget) = .ok next ∧
        next.target = driveInputTarget :=
      exists_evolved (by decide +kernel)
    obtain ⟨next, evolved, target⟩ := derived
    refine ⟨next, evolved, by rw [target]; decide +kernel, ?_⟩
    have host := windowsLibrary_isWindows
    exact ((narrowed_target_grants_iff (.inr host) (by decide) evolved).mpr
      ⟨host.keepsShares, host.keepsShares⟩).1

/-- The successor reads below a directory that the contract lists as a share only. -/
theorem directory_grants_more : ∃ next,
    shareContract.evolve (retarget directoryTarget) = .ok next ∧
      shareContract.target.isBound = true ∧ next.target.isBound = true ∧
      next.target.allowsPath "/\\srv/a" "read_only" = .ok true ∧
      shareContract.target.allowsPath "/\\srv/a" "read_only" = .ok false := by
  obtain ⟨next, evolved, target⟩ :=
    @exists_evolved _ shareContract directoryTarget (by decide +kernel)
  refine ⟨next, evolved, by decide, ?_, ?_, by decide +kernel⟩
  · rw [target]
    decide
  · rw [target]
    decide +kernel

end Aegis.LabGoal
