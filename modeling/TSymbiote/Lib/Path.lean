import TSymbiote.Lib.Strings

/-! # Paths

A path is the list of its names from the root. Walking it resolves the names
that stay where they are or lead back, and never makes its text longer.
-/

namespace TSymbiote.Path

abbrev Name := List UInt8

def slash : UInt8 := 47

/-- The text of a path, each name behind a slash. -/
def text (names : List Name) : List UInt8 := names.flatMap (slash :: ·)

/-- The directory or file that a name leads to from a directory. -/
def enter (dir : List Name) (name : Name) : List Name :=
  if name = [] ∨ name = [46] then dir
  else if name = [46, 46] then dir.dropLast
  else dir ++ [name]

/-- `path.Clean`, for a path from the root. -/
def clean (names : List Name) : List Name := names.foldl enter []

/-- What the system finds at a path: every name but the last leads to a directory. -/
def resolve (isDir : List Name → Bool) : List Name → List Name → Option (List Name)
  | dir, [] => some dir
  | dir, [name] => some (enter dir name)
  | dir, name :: names =>
      if isDir (enter dir name) then resolve isDir (enter dir name) names else none

/-- A name that leads to an entry of the directory. -/
def Proper (name : Name) : Prop := name ≠ [] ∧ name ≠ [46] ∧ name ≠ [46, 46]

variable {dir names : List Name} {name : Name}

theorem enter_proper (h : Proper name) : enter dir name = dir ++ [name] := by
  unfold enter
  rw [if_neg (not_or.mpr ⟨h.1, h.2.1⟩), if_neg h.2.2]

variable {isDir : List Name → Bool}

theorem resolve_cons (hne : names ≠ []) :
    resolve isDir dir (name :: names) =
      if isDir (enter dir name) then resolve isDir (enter dir name) names else none := by
  cases names with
  | nil => contradiction
  | cons next names => rfl

theorem resolve_concat {found : List Name}
    (h : resolve isDir dir (names ++ [name]) = some found) : ∃ last, found = enter last name := by
  induction names generalizing dir with
  | nil =>
      cases h
      exact ⟨dir, rfl⟩
  | cons first names ih =>
      rw [List.cons_append, resolve_cons (by simp)] at h
      split at h
      · exact ih h
      · contradiction

theorem resolve_proper (hnames : ∀ name ∈ names, Proper name)
    (hdirs : ∀ found, found <+: dir ++ names → isDir found = true) (hname : Proper name) :
    resolve isDir dir (names ++ [name]) = some (dir ++ names ++ [name]) := by
  induction names generalizing dir with
  | nil =>
      rw [List.nil_append, List.append_nil, resolve, enter_proper hname]
  | cons first names ih =>
      rw [List.forall_mem_cons] at hnames
      have hassoc : dir ++ first :: names = dir ++ [first] ++ names := by simp
      rw [hassoc] at hdirs ⊢
      rw [List.cons_append, resolve_cons (by simp), enter_proper hnames.1,
        if_pos (hdirs _ (List.prefix_append _ names)), ih hnames.2 hdirs]

/-! ## The length of a text -/

theorem text_append (names rest : List Name) : text (names ++ rest) = text names ++ text rest :=
  List.flatMap_append

theorem text_singleton (name : Name) : text [name] = slash :: name := by simp [text]

def size (names : List Name) : Nat := (text names).length

theorem size_append (names rest : List Name) : size (names ++ rest) = size names + size rest := by
  simp only [size, text_append, List.length_append]

theorem size_singleton (name : Name) : size [name] = name.length + 1 := by
  rw [size, text_singleton, List.length_cons]

theorem size_dropLast (names : List Name) : size names.dropLast ≤ size names := by
  rcases names.eq_nil_or_concat' with rfl | ⟨init, last, rfl⟩
  · exact Nat.le_refl _
  · rw [List.dropLast_concat, size_append]
    omega

theorem enter_or (dir : List Name) (name : Name) :
    enter dir name = dir ++ [name] ∨ size (enter dir name) < size (dir ++ [name]) := by
  have hlast := size_dropLast dir
  unfold enter
  rw [size_append, size_singleton]
  split
  · right
    omega
  · split
    · right
      omega
    · exact .inl rfl

theorem length_le_of_or {α : Type} {f : α → Nat} {x y : α} (h : x = y ∨ f x < f y) : f x ≤ f y := by
  rcases h with rfl | hlt
  · exact Nat.le_refl _
  · exact Nat.le_of_lt hlt

/-- What begins with something shorter is shorter. -/
theorem or_append {front whole walked rest : List Name}
    (hfront : front = whole ∨ size front < size whole)
    (hwalked : walked = front ++ rest ∨ size walked < size (front ++ rest)) :
    walked = whole ++ rest ∨ size walked < size (whole ++ rest) := by
  rcases hfront with rfl | hlt
  · exact hwalked
  · have hle := length_le_of_or hwalked
    right
    rw [size_append] at hle ⊢
    omega

theorem foldl_enter_or (names dir : List Name) :
    names.foldl enter dir = dir ++ names ∨ size (names.foldl enter dir) < size (dir ++ names) := by
  induction names generalizing dir with
  | nil => simp
  | cons name names ih =>
      have hassoc : dir ++ name :: names = dir ++ [name] ++ names := by simp
      rw [List.foldl_cons, hassoc]
      exact or_append (enter_or dir name) (ih (enter dir name))

/-- What has nothing to resolve is kept; anything else gets shorter. -/
theorem clean_or (names : List Name) : clean names = names ∨ size (clean names) < size names :=
  foldl_enter_or names []

theorem mem_foldl_enter (h : name ∈ names.foldl enter dir) : name ∈ dir ∨ name ∈ names := by
  induction names generalizing dir with
  | nil => exact .inl h
  | cons first names ih =>
      rw [List.foldl_cons] at h
      rcases ih h with hdir | hnames
      · unfold enter at hdir
        split at hdir
        · exact .inl hdir
        · split at hdir
          · exact .inl (List.mem_of_mem_dropLast hdir)
          · rcases List.mem_append.mp hdir with hdir | hfirst
            · exact .inl hdir
            · exact .inr (List.mem_cons.mpr (.inl (List.mem_singleton.mp hfirst)))
      · exact .inr (List.mem_cons_of_mem first hnames)

theorem mem_clean (h : name ∈ clean names) : name ∈ names :=
  (mem_foldl_enter h).resolve_left List.not_mem_nil

theorem foldl_enter_proper (h : ∀ name ∈ names, Proper name) : names.foldl enter dir = dir ++ names := by
  induction names generalizing dir with
  | nil => simp
  | cons name names ih =>
      rw [List.forall_mem_cons] at h
      rw [List.foldl_cons, enter_proper h.1, ih h.2]
      simp

theorem clean_proper (h : ∀ name ∈ names, Proper name) : clean names = names :=
  foldl_enter_proper h

/-- A change of names that resolves none and hides none. -/
theorem clean_map {f : Name → Name}
    (hf : ∀ name, ∀ special ∈ [[], [46], [46, 46]], f name = special ↔ name = special)
    (names : List Name) : clean (names.map f) = (clean names).map f := by
  have henter : ∀ dir name, enter (dir.map f) (f name) = (enter dir name).map f := by
    intro dir name
    have hnil := hf name [] (by decide)
    have hdot := hf name [46] (by decide)
    have hdots := hf name [46, 46] (by decide)
    unfold enter
    simp only [hnil, hdot, hdots]
    split
    · rfl
    · split
      · rw [List.map_dropLast]
      · simp
  have hfold : ∀ names dir : List Name, (names.map f).foldl enter (dir.map f) = (names.foldl enter dir).map f := by
    intro names
    induction names with
    | nil => exact fun _ => rfl
    | cons name names ih =>
        intro dir
        rw [List.map_cons, List.foldl_cons, List.foldl_cons, henter, ih]
  exact hfold names []

/-! ## Splitting a text -/

variable {p : UInt8 → Bool}

/-- A split gives back the names, behind the empty one before the first slash. -/
theorem splitOnP_text (hslash : p slash = true) (h : ∀ name ∈ names, ∀ b ∈ name, p b = false) :
    (text names).splitOnP p = [] :: names := by
  induction names with
  | nil => rfl
  | cons name names ih =>
      rw [List.forall_mem_cons] at h
      have hcons : text (name :: names) = slash :: (name ++ text names) := rfl
      rw [hcons, List.splitOnP_cons_eq_if_modifyHead, if_pos hslash,
        Strings.splitOnP_append h.1, ih h.2, List.modifyHead_cons, List.append_nil]

theorem splitOn_text (h : ∀ name ∈ names, slash ∉ name) :
    (text names).splitOn slash = [] :: names := by
  rw [List.splitOn_eq_splitOnP]
  apply splitOnP_text (by decide)
  intro name hname b hb
  exact beq_eq_false_iff_ne.mpr (ne_of_mem_of_not_mem hb (h name hname))

theorem size_splitOnP (s : List UInt8) : size (s.splitOnP p) = s.length + 1 := by
  induction s with
  | nil => rfl
  | cons b s ih =>
      have hcons : ∀ name names, size (name :: names) = name.length + 1 + size names := by
        intro name names
        rw [← List.singleton_append, size_append, size_singleton]
      rw [List.splitOnP_cons_eq_if_modifyHead]
      cases hsplit : s.splitOnP p with
      | nil => exact absurd hsplit (List.splitOnP_ne_nil p s)
      | cons first rest =>
          rw [hsplit, hcons] at ih
          split
          · rw [hcons, hcons, List.length_nil, List.length_cons]
            omega
          · rw [List.modifyHead_cons, hcons, List.length_cons, List.length_cons]
            omega

end TSymbiote.Path
