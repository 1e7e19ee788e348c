import ReversePolish.Text.Basic

/-!
# ReversePolish.Source.Path

**Paths**: names of folders and files, with slashes between.
-/

namespace ReversePolish.Path

/-- The name of a folder itself. -/
def current : Text := ['.']

/-- The name of the folder above. -/
def parent : Text := ['.', '.']

/-- Whether a path holds a NUL, so that nothing can have it. -/
def hasNul (path : Text) : Bool := path.contains '\x00'

/-- The names in a path, without the empty ones. -/
def names (path : Text) : List Text := (path.splitOn '/').filter fun name => !name.isEmpty

/-- The slashes at the start of a path that count: exactly two are kept, any
other number is one. -/
def root (path : Text) : Text :=
  match path with
  | '/' :: '/' :: '/' :: _ => ['/']
  | '/' :: '/' :: _ => ['/', '/']
  | '/' :: _ => ['/']
  | _ => []

/-- The plain form of a path: no empty name, no name of a folder itself, and no
slash at the end. A path that is left with nothing is the current folder. -/
def normalize (path : Text) : Text :=
  let plain := root path ++ ['/'].intercalate ((names path).filter fun name => name != current)
  if plain.isEmpty then current else plain

/-! ### Characters of paths -/

theorem mem_intercalate_iff {c sep : Char} (h : c ≠ sep) (parts : List Text) :
    c ∈ [sep].intercalate parts ↔ ∃ part ∈ parts, c ∈ part := by
  induction parts with
  | nil => simp [List.intercalate]
  | cons part rest ih =>
    cases rest with
    | nil => simp [List.intercalate]
    | cons next others =>
      rw [List.intercalate_cons_cons, List.mem_append, List.mem_append, ih, List.mem_singleton,
        or_iff_left h]
      simp

theorem not_mem_root {c : Char} (h : c ≠ '/') (path : Text) : c ∉ root path := by
  unfold root
  split <;> simp [h]

theorem exists_mem_names_iff {c : Char} (h : c ≠ '/') (path : Text) :
    (∃ name ∈ names path, c ∈ name) ↔ c ∈ path := by
  have hnames : (∃ name ∈ names path, c ∈ name) ↔ ∃ name ∈ path.splitOn '/', c ∈ name := by
    constructor
    · intro ⟨name, hname, hmem⟩
      exact ⟨name, (List.mem_filter.mp hname).1, hmem⟩
    · intro ⟨name, hname, hmem⟩
      have hempty : name ≠ [] := List.ne_nil_of_mem hmem
      exact ⟨name, by simp [names, hname, hempty], hmem⟩
  rw [hnames, ← mem_intercalate_iff h, List.intercalate_splitOn]

/-- The plain form of a path has the characters of the path, slashes and dots apart. -/
theorem mem_normalize_iff {c : Char} (hslash : c ≠ '/') (hdot : c ≠ '.') (path : Text) :
    c ∈ normalize path ↔ c ∈ path := by
  have hplain : c ∈ root path ++ ['/'].intercalate
      ((names path).filter fun name => name != current) ↔ c ∈ path := by
    rw [List.mem_append, or_iff_right (not_mem_root hslash path), mem_intercalate_iff hslash,
      ← exists_mem_names_iff hslash]
    constructor
    · intro ⟨name, hname, hmem⟩
      exact ⟨name, (List.mem_filter.mp hname).1, hmem⟩
    · intro ⟨name, hname, hmem⟩
      have hcurrent : name ≠ current := by
        rintro rfl
        exact hdot (List.mem_singleton.mp hmem)
      exact ⟨name, by simp [hname, hcurrent], hmem⟩
  rw [← hplain, normalize]
  split
  · next hempty =>
    rw [List.isEmpty_iff.mp hempty]
    simp [current, hdot]
  · rfl

@[simp] theorem hasNul_normalize (path : Text) : hasNul (normalize path) = hasNul path := by
  rw [Bool.eq_iff_iff, hasNul, hasNul, List.contains_iff_mem, List.contains_iff_mem]
  exact mem_normalize_iff (by decide) (by decide) path

end ReversePolish.Path
