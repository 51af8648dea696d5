import AegisCognition.Foundation.Path

/-!
# Path names

Path names as `posixpath` and `ntpath` take them apart: a drive, a root and names. The longest
common path of two path names keeps the drive and the root, which they must share, and the names
that they have in common. So a path name is common to itself and to another one exactly if it is
the other one, cut after some of its names.
-/

namespace Aegis.Foundation

open List

/-! ### Common fronts -/

section Fronts

variable {α β : Type} [DecidableEq β]

/-- How many items two lists have in common at the front. -/
def commonLength : List β → List β → Nat
  | x :: xs, y :: ys => if x = y then commonLength xs ys + 1 else 0
  | _, _ => 0

theorem commonLength_map_take (f : α → β) (xs : List α) (count : Nat) :
    commonLength (xs.map f) ((xs.take count).map f) = min count xs.length := by
  induction xs generalizing count with
  | nil => simp [commonLength]
  | cons x xs ih =>
      cases count with
      | zero => simp [commonLength]
      | succ count =>
          rw [take_succ_cons, map_cons, map_cons, commonLength, if_pos rfl, ih,
            length_cons]
          omega

end Fronts

/-! ### Path names of any kind -/

structure PathParts where
  drive : List Char
  root : List Char
  names : List (List Char)

section

variable (parts : PathParts)

/-- The path name with only so many of its names. -/
def PathParts.cut (count : Nat) : PathParts :=
  { parts with names := parts.names.take count }

@[simp] theorem PathParts.cut_cut (first second : Nat) :
    (parts.cut first).cut second = parts.cut (min second first) := by
  simp [PathParts.cut, take_take]

theorem PathParts.cut_length : parts.cut parts.names.length = parts := by
  simp [PathParts.cut]

theorem PathParts.cut_min (count : Nat) :
    parts.cut (min count parts.names.length) = parts.cut count := by
  simp [PathParts.cut]

/-- More names behind the others do not matter. -/
theorem PathParts.cut_append (more : List (List Char)) (count : Nat) :
    PathParts.cut { parts with names := parts.names ++ more } (min count parts.names.length) =
      parts.cut count := by
  rw [← parts.cut_min count, PathParts.cut, take_append_of_le_length (Nat.min_le_right _ _)]
  rfl

end

/-- How path names are taken apart, and up to what their parts are compared. -/
structure PathKind where
  separator : Char
  split : List Char → PathParts
  fold : List Char → List Char

namespace PathKind

variable (kind : PathKind)

def join (parts : PathParts) : List Char :=
  parts.drive ++ parts.root ++ [kind.separator].intercalate parts.names

/-- The longest common path, in the spelling of the first one. Two paths on different drives have
none, and neither have an absolute and a relative one. -/
def commonpath (first second : List Char) : Option (List Char) :=
  let first := kind.split first
  let second := kind.split second
  if kind.fold first.drive = kind.fold second.drive ∧
      kind.fold first.root = kind.fold second.root then
    some (kind.join
      (first.cut (commonLength (first.names.map kind.fold) (second.names.map kind.fold))))
  else none

/-- The path name is taken apart into parts that are put together and taken apart again. -/
def Stable (path : List Char) : Prop :=
  ∀ count, kind.split (kind.join ((kind.split path).cut count)) = (kind.split path).cut count

variable {kind} {path middle root : List Char}

theorem commonpath_eq_some_iff (stable : kind.Stable path) :
    kind.commonpath path root = some root ↔
      ∃ count, root = kind.join ((kind.split path).cut count) := by
  constructor
  · intro common
    dsimp only [commonpath] at common
    split at common
    · exact ⟨_, (Option.some.inj common).symm⟩
    · cases common
  · rintro ⟨count, rfl⟩
    have names : ((kind.split path).cut count).names = (kind.split path).names.take count := rfl
    dsimp only [commonpath]
    rw [stable count, if_pos ⟨rfl, rfl⟩, names, commonLength_map_take, PathParts.cut_min]

theorem split_of_commonpath (stable : kind.Stable path)
    (h : kind.commonpath path root = some root) :
    ∃ count, kind.split root = (kind.split path).cut count := by
  obtain ⟨count, rfl⟩ := (commonpath_eq_some_iff stable).mp h
  exact ⟨count, stable count⟩

theorem commonpath_trans (stable : kind.Stable path)
    (h : kind.commonpath path middle = some middle)
    (h' : kind.commonpath middle root = some root) : kind.commonpath path root = some root := by
  obtain ⟨count, split⟩ := split_of_commonpath stable h
  have stable' : kind.Stable middle := by
    intro count'
    rw [split, PathParts.cut_cut]
    exact stable _
  obtain ⟨count', rfl⟩ := (commonpath_eq_some_iff stable').mp h'
  rw [split, PathParts.cut_cut]
  exact (commonpath_eq_some_iff stable).mpr ⟨_, rfl⟩

end PathKind

/-! ### Names between separators -/

section Names

variable {separator : Char}

/-- What may stand between separators and names something. -/
structure IsPathName (separator : Char) (name : List Char) : Prop where
  nonempty : name ≠ []
  noDot : name ≠ ['.']
  unseparated : separator ∉ name

/-- The names between the separators. Nothing and a dot name nothing. -/
def pathNames (separator : Char) (path : List Char) : List (List Char) :=
  (path.splitOn separator).filter fun name => name ≠ [] ∧ name ≠ ['.']

theorem of_mem_splitOn {path piece : List Char} (h : piece ∈ path.splitOn separator) :
    separator ∉ piece ∧ piece ⊆ path := by
  induction path generalizing piece with
  | nil =>
      rw [splitOn_nil, mem_singleton] at h
      subst h
      exact ⟨not_mem_nil, List.Subset.refl _⟩
  | cons c path ih =>
      rw [splitOn_cons_eq_if_modifyHead] at h
      split at h
      · rcases mem_cons.mp h with rfl | mem
        · exact ⟨not_mem_nil, nil_subset _⟩
        · exact ⟨(ih mem).1, subset_cons_of_subset _ (ih mem).2⟩
      · rename_i other
        cases pieces : path.splitOn separator with
        | nil => exact absurd pieces (splitOn_ne_nil _ _)
        | cons first rest =>
            rw [pieces] at h ih
            rcases mem_cons.mp h with rfl | mem
            · obtain ⟨apart, part⟩ := ih mem_cons_self
              refine ⟨?_, cons_subset_cons _ part⟩
              rw [mem_cons, not_or]
              exact ⟨fun same => other (by simp [same]), apart⟩
            · obtain ⟨apart, part⟩ := ih (mem_cons_of_mem _ mem)
              exact ⟨apart, subset_cons_of_subset _ part⟩

theorem of_mem_pathNames {path name : List Char} (h : name ∈ pathNames separator path) :
    IsPathName separator name ∧ name ⊆ path := by
  obtain ⟨mem, named⟩ := mem_filter.mp h
  have named := of_decide_eq_true named
  obtain ⟨apart, part⟩ := of_mem_splitOn mem
  exact ⟨⟨named.1, named.2, apart⟩, part⟩

theorem pathNames_append (first second : List Char) :
    pathNames separator (first ++ separator :: second) =
      pathNames separator first ++ pathNames separator second := by
  rw [pathNames, splitOn_append_cons_self, filter_append]
  rfl

/-- A separator in front does not matter. -/
theorem pathNames_cons (path : List Char) :
    pathNames separator (separator :: path) = pathNames separator path :=
  pathNames_append [] path

theorem pathNames_intercalate {names : List (List Char)}
    (h : ∀ name ∈ names, IsPathName separator name) :
    pathNames separator ([separator].intercalate names) = names := by
  cases names with
  | nil => rfl
  | cons first rest =>
      unfold pathNames
      rw [splitOn_intercalate separator (fun name mem => (h name mem).unseparated)
        (cons_ne_nil _ _), filter_eq_self]
      intro name mem
      exact decide_eq_true ⟨(h name mem).nonempty, (h name mem).noDot⟩

theorem pathNames_of_isPathName {name : List Char} (h : IsPathName separator name) :
    pathNames separator name = [name] := by
  have single := @pathNames_intercalate separator [name] fun other mem =>
    (mem_singleton.mp mem) ▸ h
  rwa [intercalate_singleton] at single

theorem intercalate_append {first second : List (List Char)} (h : first ≠ []) (h' : second ≠ []) :
    [separator].intercalate (first ++ second) =
      [separator].intercalate first ++ separator :: [separator].intercalate second := by
  induction first with
  | nil => exact absurd rfl h
  | cons name first ih =>
      cases first with
      | nil =>
          rw [singleton_append, intercalate_cons_of_ne_nil h', intercalate_singleton,
            append_assoc]
          rfl
      | cons name' first =>
          have more : first ++ second ≠ [] := by simp [h']
          rw [cons_append, cons_append, intercalate_cons_cons,
            intercalate_cons_cons, ← cons_append, ih (cons_ne_nil _ _)]
          simp

theorem mem_intercalate {names : List (List Char)} {c : Char}
    (h : c ∈ [separator].intercalate names) : (∃ name ∈ names, c ∈ name) ∨ c = separator := by
  induction names with
  | nil => cases h
  | cons first rest ih =>
      cases rest with
      | nil => exact .inl ⟨first, mem_cons_self, by rwa [intercalate_singleton] at h⟩
      | cons second rest =>
          rw [intercalate_cons_cons] at h
          rcases mem_append.mp h with mem | mem
          · rcases mem_append.mp mem with mem | mem
            · exact .inl ⟨first, mem_cons_self, mem⟩
            · exact .inr (mem_singleton.mp mem)
          · refine (ih mem).imp_left fun ⟨name, mem', inside⟩ => ?_
            exact ⟨name, mem_cons_of_mem first mem', inside⟩

/-- The joined names start with no separator. -/
theorem head?_intercalate {names : List (List Char)}
    (h : ∀ name ∈ names, IsPathName separator name) :
    ([separator].intercalate names).head? ≠ some separator := by
  cases names with
  | nil => exact nofun
  | cons first rest =>
      have named := h first mem_cons_self
      cases first with
      | nil => exact absurd rfl named.nonempty
      | cons c first =>
          have other : c ≠ separator := fun same => named.unseparated (by simp [same])
          cases rest with
          | nil => simpa [intercalate_singleton] using other
          | cons second rest => simpa [intercalate_cons_cons] using other

end Names

/-! ### POSIX -/

namespace Posix

section

variable (path : List Char)

/-- There are no drives, and an absolute path name starts with a slash. -/
def split : PathParts where
  drive := []
  root := if path.head? = some '/' then ['/'] else []
  names := pathNames '/' path

def kind : PathKind where
  separator := '/'
  split := split
  fold := id

theorem kind_split : kind.split path = split path := rfl

def stepOf (name : List Char) : PathStep (List Char) :=
  if name = ['.', '.'] then .up else .into name

/-- What `normpath` makes of a path name that starts with one slash. -/
def normalize : List Char :=
  kind.join ⟨[], ['/'], walk [] ((pathNames '/' path).map stepOf)⟩

/-- A slash and names between slashes, none of them two dots. -/
def IsNormal : Prop :=
  ∃ names, (∀ name ∈ names, IsPathName '/' name ∧ name ≠ ['.', '.']) ∧
    path = kind.join ⟨[], ['/'], names⟩

theorem split_join {names : List (List Char)} (h : ∀ name ∈ names, IsPathName '/' name) :
    kind.split (kind.join ⟨[], ['/'], names⟩) = ⟨[], ['/'], names⟩ := by
  show split ('/' :: ['/'].intercalate names) = _
  rw [split, pathNames_cons, pathNames_intercalate h]
  rfl

theorem walk_steps {names : List (List Char)} (h : ∀ name ∈ names, IsPathName '/' name)
    {place : List (List Char)}
    (h' : ∀ name ∈ place, IsPathName '/' name ∧ name ≠ ['.', '.']) :
    ∀ name ∈ walk place (names.map stepOf), IsPathName '/' name ∧ name ≠ ['.', '.'] := by
  induction names generalizing place with
  | nil => exact h'
  | cons name names ih =>
      have rest := fun other mem => h other (mem_cons_of_mem name mem)
      rw [map_cons, stepOf]
      split
      · exact ih rest fun other mem => h' other (dropLast_subset _ mem)
      · rename_i down
        refine ih rest fun other mem => ?_
        rcases mem_append.mp mem with mem | mem
        · exact h' other mem
        · obtain rfl := mem_singleton.mp mem
          exact ⟨h other mem_cons_self, down⟩

theorem isNormal_normalize : IsNormal (normalize path) :=
  ⟨_, walk_steps (fun _ mem => (of_mem_pathNames mem).1) (forall_mem_nil _), rfl⟩

end

theorem walk_names {names : List (List Char)} (h : ∀ name ∈ names, name ≠ ['.', '.'])
    (place : List (List Char)) : walk place (names.map stepOf) = place ++ names := by
  induction names generalizing place with
  | nil => exact (append_nil place).symm
  | cons name names ih =>
      rw [map_cons, stepOf, if_neg (h name mem_cons_self), walk,
        ih fun other mem => h other (mem_cons_of_mem name mem), append_assoc]
      rfl

namespace IsNormal

variable {path root : List Char}

section

variable (h : IsNormal path)
include h

theorem normalize_eq : normalize path = path := by
  obtain ⟨names, named, rfl⟩ := h
  have split := split_join fun name mem => (named name mem).1
  have same : pathNames '/' (kind.join ⟨[], ['/'], names⟩) = names :=
    congrArg PathParts.names split
  rw [normalize, same, walk_names fun name mem => (named name mem).2]
  rfl

theorem stable : kind.Stable path := by
  obtain ⟨names, named, rfl⟩ := h
  intro count
  rw [split_join fun name mem => (named name mem).1]
  exact split_join fun name mem => (named name (mem_of_mem_take mem)).1

theorem append (below : path ≠ ['/']) {name : List Char}
    (named : IsPathName '/' name) (notUp : name ≠ ['.', '.']) : IsNormal (path ++ '/' :: name) := by
  obtain ⟨names, named', rfl⟩ := h
  obtain rfl | ⟨first, last, rfl⟩ := eq_nil_or_concat names
  · exact absurd rfl below
  refine ⟨first.concat last ++ [name], fun other mem => ?_, ?_⟩
  · rcases mem_append.mp mem with mem | mem
    · exact named' other mem
    · exact (mem_singleton.mp mem) ▸ ⟨named, notUp⟩
  · simp only [PathKind.join, kind]
    rw [intercalate_append (by simp) (cons_ne_nil _ _), intercalate_singleton]
    simp

theorem split_append (below : path ≠ ['/']) {name : List Char}
    (named : IsPathName '/' name) : kind.split (path ++ '/' :: name) =
      { kind.split path with names := (kind.split path).names ++ [name] } := by
  obtain ⟨rest, rfl⟩ : ∃ rest, path = '/' :: rest := by
    obtain ⟨names, -, rfl⟩ := h
    exact ⟨_, rfl⟩
  rw [kind_split, kind_split, split, pathNames_append, pathNames_of_isPathName named]
  rfl

theorem join_split : kind.join (kind.split path) = path := by
  obtain ⟨names, named, rfl⟩ := h
  rw [split_join fun name mem => (named name mem).1]

theorem commonpath_self : kind.commonpath path path = some path :=
  (PathKind.commonpath_eq_some_iff h.stable).mpr
    ⟨_, by rw [PathParts.cut_length, h.join_split]⟩

/-- What contains a path contains what is below it, and nothing else does but that itself. -/
theorem commonpath_append_iff (below : path ≠ ['/']) {name : List Char}
    (named : IsPathName '/' name) (notUp : name ≠ ['.', '.']) :
    kind.commonpath (path ++ '/' :: name) root = some root ↔
      root = path ++ '/' :: name ∨ kind.commonpath path root = some root := by
  have normal := h.append below named notUp
  have split := h.split_append below named
  constructor
  · intro common
    obtain ⟨count, eq⟩ := (PathKind.commonpath_eq_some_iff normal.stable).mp common
    by_cases inside : count ≤ (kind.split path).names.length
    · right
      rw [split, ← Nat.min_eq_left inside, PathParts.cut_append] at eq
      exact (PathKind.commonpath_eq_some_iff h.stable).mpr ⟨count, eq⟩
    · left
      have all : (kind.split (path ++ '/' :: name)).names.length ≤ count := by
        rw [split, length_append, length_singleton]
        omega
      rw [eq, ← PathParts.cut_min, Nat.min_eq_right all, PathParts.cut_length, normal.join_split]
  · rintro (rfl | common)
    · exact normal.commonpath_self
    · obtain ⟨count, eq⟩ := (PathKind.commonpath_eq_some_iff h.stable).mp common
      refine (PathKind.commonpath_eq_some_iff normal.stable).mpr
        ⟨min count (kind.split path).names.length, ?_⟩
      rw [split, PathParts.cut_append]
      exact eq

/-- What is below a path other than the root goes on from it after a slash. -/
theorem eq_append_of_commonpath (common : kind.commonpath path root = some root)
    (below : root ≠ ['/']) : path = root ∨ ∃ rest, path = root ++ '/' :: rest := by
  obtain ⟨count, rfl⟩ := (PathKind.commonpath_eq_some_iff h.stable).mp common
  obtain ⟨names, named, rfl⟩ := h
  rw [split_join fun name mem => (named name mem).1] at below ⊢
  rcases eq : names.drop count with _ | ⟨next, rest⟩
  · left
    rw [PathParts.cut, take_of_length_le (drop_eq_nil_iff.mp eq)]
  · right
    have some : names.take count ≠ [] := by
      intro none
      exact below (by rw [PathParts.cut, none]; rfl)
    refine ⟨['/'].intercalate (next :: rest), ?_⟩
    rw [← eq]
    simp only [PathKind.join, kind, PathParts.cut]
    conv_lhs => rw [← take_append_drop count names]
    rw [intercalate_append some (by simp [eq])]
    simp

end

end IsNormal

end Posix

/-! ### Windows -/

namespace Windows

def backslashed (path : List Char) : List Char :=
  path.map fun c => if c = '/' then '\\' else c

/-- What stands before the separator after so many others, and what is left from it on. -/
def splitBefore (count : Nat) : List Char → List Char × List Char
  | [] => ([], [])
  | c :: path =>
      if c = '\\' then
        match count with
        | 0 => ([], c :: path)
        | count + 1 => ((splitBefore count path).map (c :: ·) id)
      else (splitBefore count path).map (c :: ·) id

/-- A server and its share, which a device prefix may stand before. -/
def splitShare (path : List Char) : List Char × List Char :=
  let (share, rest) := splitBefore 1 path
  if share.map Char.toUpper = "?\\UNC".toList ∧ rest ≠ [] then
    (splitBefore 1 rest.tail).map (share ++ '\\' :: ·) id
  else (share, rest)

/-- The drive, the root and the rest of a path without slashes. -/
def splitroot : List Char → List Char × List Char × List Char
  | '\\' :: '\\' :: path =>
      ('\\' :: '\\' :: (splitShare path).1, (splitShare path).2.take 1, (splitShare path).2.drop 1)
  | '\\' :: path => ([], ['\\'], path)
  | letter :: ':' :: '\\' :: path => ([letter, ':'], ['\\'], path)
  | letter :: ':' :: path => ([letter, ':'], [], path)
  | path => ([], [], path)

def split (path : List Char) : PathParts where
  drive := (splitroot (backslashed path)).1
  root := (splitroot (backslashed path)).2.1
  names := pathNames '\\' (splitroot (backslashed path)).2.2

/-- The names are compared in lower case, which changes no separator. -/
def kind (lower : List Char → List Char) : PathKind where
  separator := '\\'
  split := split
  fold := lower

/-! #### Separators -/

theorem not_mem_backslashed (path : List Char) : '/' ∉ backslashed path := by
  intro mem
  obtain ⟨c, -, eq⟩ := mem_map.mp mem
  split at eq
  · exact absurd eq (by decide)
  · contradiction

theorem backslashed_eq_self {path : List Char} (h : '/' ∉ path) : backslashed path = path := by
  have same := map_congr_left (f := fun c => if c = '/' then '\\' else c) (g := id)
    fun c mem => if_neg (by rintro rfl; exact h mem)
  exact same.trans (map_id path)

theorem split_backslashed (path : List Char) : split (backslashed path) = split path := by
  rw [split, backslashed_eq_self (not_mem_backslashed path)]
  rfl

/-! #### Shares -/

variable {count : Nat} {path rest : List Char}

theorem splitBefore_append (count : Nat) (path : List Char) :
    (splitBefore count path).1 ++ (splitBefore count path).2 = path := by
  fun_induction splitBefore count path with
  | case1 => rfl
  | case2 path => rfl
  | case3 path count ih => exact congrArg _ ih
  | case4 count c path other ih => exact congrArg _ ih

/-- Only what stands before the separator decides where a path is split. -/
theorem splitBefore_again (h : (splitBefore count path).2 ≠ []) :
    ∃ rest, (splitBefore count path).2 = '\\' :: rest ∧ ∀ other,
      splitBefore count ((splitBefore count path).1 ++ '\\' :: other) =
        ((splitBefore count path).1, '\\' :: other) := by
  fun_induction splitBefore count path with
  | case1 => exact absurd rfl h
  | case2 path => exact ⟨path, rfl, fun other => by simp [splitBefore]⟩
  | case3 path count ih =>
      obtain ⟨rest, split, again⟩ := ih h
      refine ⟨rest, split, fun other => ?_⟩
      simp only [Prod.map_fst, cons_append, splitBefore, again other]
      rfl
  | case4 count c path other ih =>
      obtain ⟨rest, split, again⟩ := ih h
      refine ⟨rest, split, fun other' => ?_⟩
      simp only [Prod.map_fst, cons_append, splitBefore, if_neg other, again other']
      rfl

/-- A name without a separator does not bring one in. -/
theorem splitBefore_extend (h : (splitBefore count path).2 = []) {name : List Char}
    (named : '\\' ∉ name) : (splitBefore count (path ++ name)).2 = [] := by
  fun_induction splitBefore count path with
  | case1 count =>
      induction name with
      | nil => rfl
      | cons c name ih =>
          rw [mem_cons, not_or] at named
          have other : c ≠ '\\' := fun same => named.1 same.symm
          simp only [nil_append, splitBefore, if_neg other]
          exact ih named.2
  | case2 path => cases h
  | case3 path count ih => exact ih h
  | case4 count c path other ih =>
      simp only [cons_append, splitBefore, if_neg other]
      exact ih h

theorem splitShare_append (path : List Char) :
    (splitShare path).1 ++ (splitShare path).2 = path := by
  dsimp only [splitShare]
  split
  · rename_i device
    obtain ⟨rest, split, -⟩ := splitBefore_again device.2
    rw [split]
    conv_rhs => rw [← splitBefore_append 1 path, split, ← splitBefore_append 1 rest]
    simp
  · exact splitBefore_append 1 path

theorem splitShare_again (h : (splitShare path).2 ≠ []) :
    ∃ rest, (splitShare path).2 = '\\' :: rest ∧ ∀ other,
      splitShare ((splitShare path).1 ++ '\\' :: other) = ((splitShare path).1, '\\' :: other) := by
  dsimp only [splitShare] at h ⊢
  split at h
  · rename_i device
    obtain ⟨rest, split, again⟩ := splitBefore_again device.2
    obtain ⟨rest', split', again'⟩ := splitBefore_again h
    rw [if_pos device]
    refine ⟨rest', split', fun other => ?_⟩
    rw [Prod.map_fst, append_assoc, cons_append, again, if_pos ⟨device.1, nofun⟩]
    rw [tail_cons, again']
    rfl
  · rename_i share
    obtain ⟨rest, split, again⟩ := splitBefore_again h
    rw [if_neg share]
    refine ⟨rest, split, fun other => ?_⟩
    rw [again, if_neg fun device => share ⟨device.1, h⟩]

theorem splitShare_extend (h : (splitShare path).2 = []) {name : List Char} (named : '\\' ∉ name) :
    (splitShare (path ++ name)).2 = [] := by
  by_cases split : (splitBefore 1 path).2 = []
  · have none := splitBefore_extend split named
    dsimp only [splitShare]
    rw [if_neg fun device => device.2 none]
    exact none
  · obtain ⟨rest, split', again⟩ := splitBefore_again split
    have longer : splitBefore 1 (path ++ name) =
        ((splitBefore 1 path).1, '\\' :: (rest ++ name)) := by
      rw [← again, ← cons_append, ← append_assoc, ← split', splitBefore_append]
    dsimp only [splitShare] at h ⊢
    split at h
    · rename_i device
      rw [longer, if_pos ⟨device.1, nofun⟩]
      rw [split'] at h
      exact splitBefore_extend h named
    · exact absurd h split

/-- A share goes on as long as nothing has ended it. -/
theorem splitShare_extend_eq (h : (splitShare path).2 = []) {name : List Char}
    (named : '\\' ∉ name) : splitShare (path ++ name) = (path ++ name, []) := by
  have none := splitShare_extend h named
  refine Prod.ext ?_ none
  have whole := splitShare_append (path ++ name)
  rwa [none, append_nil] at whole

/-- What ends a share and is followed by nothing ends it at any time. -/
theorem splitShare_close (h : (splitShare path).2 = [])
    (h' : (splitShare (path ++ ['\\'])).2 ≠ []) (other : List Char) :
    splitShare (path ++ '\\' :: other) = (path, '\\' :: other) := by
  obtain ⟨rest, split, again⟩ := splitShare_again h'
  have whole := splitShare_append (path ++ ['\\'])
  rw [split] at whole
  obtain rfl | ⟨front, last, rfl⟩ := eq_nil_or_concat rest
  · have same : (splitShare (path ++ ['\\'])).1 = path := append_cancel_right whole
    rw [same] at again
    exact again other
  · -- Then the path itself has a separator that ends its share.
    rw [concat_eq_append, ← cons_append, ← append_assoc] at whole
    have ended := again front
    rw [(append_inj' whole rfl).1] at ended
    rw [ended] at h
    cases h

/-! #### Roots -/

theorem splitroot_append (path : List Char) :
    (splitroot path).1 ++ ((splitroot path).2.1 ++ (splitroot path).2.2) = path := by
  fun_cases splitroot path with
  | case1 path =>
      have whole := splitShare_append path
      rw [cons_append, cons_append, take_append_drop, whole]
  | case2 path => rfl
  | case3 letter path => rfl
  | case4 letter path => rfl
  | case5 path => rfl

/-- The drive and the root are found again in front of what does not start with a separator. -/
theorem splitroot_again (h : (splitroot path).2.1 ≠ []) {other : List Char}
    (h' : other.head? ≠ some '\\') :
    splitroot ((splitroot path).1 ++ ((splitroot path).2.1 ++ other)) =
      ((splitroot path).1, (splitroot path).2.1, other) := by
  fun_cases splitroot path with
  | case1 path =>
      have some : (splitShare path).2 ≠ [] := fun none => h (by simp [splitroot, none])
      obtain ⟨rest, split, again⟩ := splitShare_again some
      simp [split, splitroot, again]
  | case2 path =>
      cases other with
      | nil => rfl
      | cons c other =>
          have apart : c ≠ '\\' := fun same => h' (by rw [same]; rfl)
          simp [splitroot, apart]
  | case3 letter path =>
      simp [splitroot]
  | case4 letter path => simp [splitroot] at h
  | case5 path => simp [splitroot] at h

/-- The path has a root, or it is nothing but a drive. -/
def IsAnchored (path : List Char) : Prop :=
  (splitroot (backslashed path)).2.1 ≠ [] ∨ (splitroot (backslashed path)).2.2 = []

theorem isAnchored_of_separator {path rest : List Char} (h : backslashed path = '\\' :: rest) :
    IsAnchored path := by
  rw [IsAnchored, h]
  cases rest with
  | nil => exact .inr rfl
  | cons c rest =>
      by_cases share : c = '\\'
      · subst share
        cases split : (splitShare rest).2 with
        | nil => right; simp [splitroot, split]
        | cons separator rest' => left; simp [splitroot, split]
      · left
        simp [splitroot, share]

theorem isAnchored_of_drive {path rest : List Char} {letter : Char}
    (h : backslashed path = letter :: ':' :: '\\' :: rest) : IsAnchored path := by
  by_cases separator : letter = '\\'
  · exact isAnchored_of_separator (separator ▸ h)
  · left
    rw [h]
    simp [splitroot]

/-- The path has a drive, whatever its letter, and a root, or it starts with two separators. -/
def IsAbsolute (path : List Char) : Prop :=
  (∃ letter rest, path = letter :: ':' :: '\\' :: rest ∧ letter ≠ '/') ∨
    ∃ rest, path = '\\' :: '\\' :: rest

/-- No slash is left in what is put together. -/
theorem not_mem_join (lower : List Char → List Char) (path : List Char) (count : Nat) :
    '/' ∉ (kind lower).join ((split path).cut count) := by
  have unslashed := not_mem_backslashed path
  rw [← splitroot_append (backslashed path)] at unslashed
  simp only [mem_append, not_or] at unslashed
  simp only [PathKind.join, PathParts.cut, kind, split, mem_append, not_or]
  refine ⟨⟨unslashed.1, unslashed.2.1⟩, fun mem => ?_⟩
  obtain ⟨name, mem', inside⟩ | slash := mem_intercalate mem
  · exact unslashed.2.2 ((of_mem_pathNames (mem_of_mem_take mem')).2 inside)
  · exact absurd slash (by decide)

theorem IsAnchored.stable {path : List Char} (h : IsAnchored path)
    (lower : List Char → List Char) : (kind lower).Stable path := by
  intro count
  have whole := splitroot_append (backslashed path)
  have joined : (kind lower).join ((split path).cut count) =
      (splitroot (backslashed path)).1 ++ ((splitroot (backslashed path)).2.1 ++
        ['\\'].intercalate ((pathNames '\\' (splitroot (backslashed path)).2.2).take count)) :=
    append_assoc _ _ _
  show split ((kind lower).join ((split path).cut count)) = (split path).cut count
  rw [split, backslashed_eq_self (not_mem_join lower path count), joined]
  generalize kept : (pathNames '\\' (splitroot (backslashed path)).2.2).take count = names
  have named (name : List Char) (mem : name ∈ names) : IsPathName '\\' name :=
    (of_mem_pathNames (mem_of_mem_take (kept ▸ mem))).1
  rcases h with rooted | bare
  · rw [splitroot_again rooted (head?_intercalate named), pathNames_intercalate named, ← kept]
    rfl
  · have none : names = [] := by
      rw [← kept, bare]
      exact take_nil
    rw [bare] at whole
    rw [none, intercalate_nil, whole, PathParts.cut, split, kept, none, bare]
    rfl

/-! #### Below a share -/

/-- The path starts with two separators. -/
def IsUnc (path : List Char) : Prop :=
  ∃ share, backslashed path = '\\' :: '\\' :: share

section Shares

variable {path : List Char}

theorem backslashed_append (path other : List Char) :
    backslashed (path ++ '/' :: other) = backslashed path ++ '\\' :: backslashed other := by
  rw [backslashed, map_append]
  rfl

theorem splitroot_share (share : List Char) : splitroot ('\\' :: '\\' :: share) =
    ('\\' :: '\\' :: (splitShare share).1, (splitShare share).2.take 1,
      (splitShare share).2.drop 1) := rfl

/-- Behind a share there are names only. -/
theorem split_append (unc : IsUnc path) (rooted : (split path).root ≠ []) (other : List Char) :
    split (path ++ '/' :: other) =
      { split path with names := (split path).names ++ pathNames '\\' (backslashed other) } := by
  obtain ⟨share, eq⟩ := unc
  have some : (splitShare share).2 ≠ [] := by
    intro none
    exact rooted (by simp only [split, eq, splitroot_share, none]; rfl)
  obtain ⟨rest, split', again⟩ := splitShare_again some
  have whole := splitShare_append share
  have longer : splitShare (share ++ '\\' :: backslashed other) =
      ((splitShare share).1, '\\' :: (rest ++ '\\' :: backslashed other)) := by
    conv_lhs => rw [← whole, split', append_assoc, cons_append, again]
  simp only [split, backslashed_append, eq, cons_append, splitroot_share, longer, split',
    take_succ_cons, take_zero, drop_succ_cons, drop_zero, pathNames_append]

/-- A separator that ends the share is its root. -/
theorem split_append_of_closes (unc : IsUnc path) (bare : (split path).root = [])
    (closes : (split (path ++ ['/'])).root ≠ []) (other : List Char) :
    split (path ++ '/' :: other) =
      ⟨backslashed path, ['\\'], pathNames '\\' (backslashed other)⟩ := by
  obtain ⟨share, eq⟩ := unc
  have none : (splitShare share).2 = [] := by
    simpa only [split, eq, splitroot_share, take_eq_nil_iff, Nat.one_ne_zero, false_or]
      using bare
  have some : (splitShare (share ++ ['\\'])).2 ≠ [] := by
    intro none'
    refine closes ?_
    rw [split, backslashed_append, eq]
    simp only [cons_append, splitroot_share, backslashed, map_nil, none', take_nil]
  have closed := splitShare_close none some (backslashed other)
  simp only [split, backslashed_append, eq, cons_append, splitroot_share, closed,
    take_succ_cons, take_zero, drop_succ_cons, drop_zero]

/-- A name behind a server that names no share yet is part of the drive. -/
theorem split_append_of_open (unc : IsUnc path)
    (stays : (split (path ++ ['/'])).root = []) {name : List Char}
    (named : '\\' ∉ backslashed name) :
    split (path ++ '/' :: name) = ⟨backslashed (path ++ '/' :: name), [], []⟩ := by
  obtain ⟨share, eq⟩ := unc
  have none : (splitShare (share ++ ['\\'])).2 = [] := by
    have root : (split (path ++ ['/'])).root = (splitShare (share ++ ['\\'])).2.take 1 := by
      rw [split, backslashed_append, eq]
      rfl
    simpa only [root, take_eq_nil_iff, Nat.one_ne_zero, false_or] using stays
  have whole := splitShare_extend_eq none named
  rw [append_assoc, singleton_append] at whole
  simp only [split, backslashed_append, eq, cons_append, splitroot_share, whole,
    take_nil, drop_nil]
  rfl

end Shares

end Windows

end Aegis.Foundation
