import Mathlib.Data.Nat.Find

/-! # Discovery of the daemon's socket

`discoverSocket` looks below the process directories of `/proc` for a socket of
the daemon. `DiscoverSocket` retries it while nothing is found, and leaves the
loop in the same way when an attempt has succeeded and when none is left.
-/

namespace TSymbiote.Utils

/-- `notExist` is what `errors.Is(err, os.ErrNotExist)` says. -/
structure FsError where
  notExist : Bool
  text : String
  deriving DecidableEq, Repr

def errNotExist : FsError := { notExist := true, text := "file does not exist" }

inductive Error where
  | fs (err : FsError)
  | wrapped (text : String) (err : FsError)
  | message (text : String)
  deriving DecidableEq, Repr

/-- `os.IsNotExist(err)`, which does not unwrap. -/
def Error.isNotExist : Error → Bool
  | .fs err => err.notExist
  | _ => false

inductive FileType where
  | socket
  | other
  deriving DecidableEq, Repr

structure DirEntry where
  name : String
  isDir : Bool
  deriving DecidableEq, Repr

/-- What one attempt sees of the file system. -/
structure Snapshot where
  readDir : Except FsError (List DirEntry)
  stat : String → Except FsError FileType

/-- `^[0-9]+$` -/
def isPID (name : String) : Bool := !name.toList.isEmpty && name.toList.all (·.isDigit)

def socketPath (name : String) : String := "/proc/" ++ name ++ "/root/tmp/tailscaled.sock"

def searchFiles (stat : String → Except FsError FileType) : List DirEntry → Except Error String
  | [] => .error (.fs errNotExist)
  | file :: files =>
      if file.isDir && isPID file.name then
        match stat (socketPath file.name) with
        | .error err =>
            if err.notExist then searchFiles stat files
            else .error (.wrapped "encountered during socket discovery: " err)
        | .ok .socket => .ok (socketPath file.name)
        | .ok .other => .error (.message "found matching tailscaled.sock that wasn't a socket")
      else searchFiles stat files

def discoverSocket (snapshot : Snapshot) : Except Error String :=
  match snapshot.readDir with
  | .error err => .error (.fs err)
  | .ok files => searchFiles snapshot.stat files

/-- The loop, with so many attempts to go and so many made. -/
def discoverLoop (snapshots : Nat → Snapshot) : Nat → Nat → String × Option Error
  | 0, _ => ("", none)
  | left + 1, attempts =>
      match discoverSocket (snapshots attempts) with
      | .ok path => (path, none)
      | .error err =>
          if err.isNotExist then discoverLoop snapshots left (attempts + 1) else ("", some err)

def DiscoverSocket (snapshots : Nat → Snapshot) : String × Option Error := discoverLoop snapshots 4 0

/-- The socket that `NewTSymbioteAdapter` has its host client use, where the empty
path stands for the default; none when it gives up. -/
def hostSocket (customSocketPath : String) (discover : Bool) (snapshots : Nat → Snapshot) :
    Option String :=
  if discover then
    match DiscoverSocket snapshots with
    | (_, some _) => none
    | (discoveredSocketPath, none) => some discoveredSocketPath
  else some customSocketPath

/-! ## What a discovery should come to -/

/-- The path is that of a socket below a process directory. -/
def Validates (snapshot : Snapshot) (path : String) : Prop :=
  ∃ files, snapshot.readDir = .ok files ∧ ∃ file ∈ files, file.isDir = true ∧
    isPID file.name = true ∧ path = socketPath file.name ∧ snapshot.stat path = .ok .socket

def EndsNotExist (snapshot : Snapshot) : Prop :=
  ∃ err, discoverSocket snapshot = .error err ∧ err.isNotExist = true

/-- A path comes from the first attempt that ends otherwise than in not-exist and
is a socket; without such an attempt, or after another error, there is an error. -/
structure Sound (snapshots : Nat → Snapshot) : Prop where
  found : ∀ path, DiscoverSocket snapshots = (path, none) →
    ∃ i < 4, Validates (snapshots i) path ∧ ∀ j < i, EndsNotExist (snapshots j)
  missing : (∀ i < 4, EndsNotExist (snapshots i)) → (DiscoverSocket snapshots).2 ≠ none
  failed : ∀ i < 4, (∀ j < i, EndsNotExist (snapshots j)) →
    ∀ err, discoverSocket (snapshots i) = .error err → err.isNotExist = false →
      (DiscoverSocket snapshots).2 ≠ none

/-! ## One attempt -/

theorem searchFiles_ok {stat : String → Except FsError FileType} {files : List DirEntry}
    {path : String} (h : searchFiles stat files = .ok path) :
    ∃ file ∈ files, file.isDir = true ∧ isPID file.name = true ∧ path = socketPath file.name ∧
      stat path = .ok .socket := by
  induction files with
  | nil => cases h
  | cons file files ih =>
      unfold searchFiles at h
      split at h
      · next hdir =>
          rw [Bool.and_eq_true] at hdir
          split at h
          · split at h
            · rcases ih h with ⟨other, hother, hsocket⟩
              exact ⟨other, List.mem_cons_of_mem file hother, hsocket⟩
            · cases h
          · next hstat =>
              cases h
              exact ⟨file, List.mem_cons_self, hdir.1, hdir.2, rfl, hstat⟩
          · cases h
      · rcases ih h with ⟨other, hother, hsocket⟩
        exact ⟨other, List.mem_cons_of_mem file hother, hsocket⟩

theorem discoverSocket_ok {snapshot : Snapshot} {path : String}
    (h : discoverSocket snapshot = .ok path) : Validates snapshot path := by
  unfold discoverSocket at h
  split at h
  · cases h
  · next files hfiles => exact ⟨files, hfiles, searchFiles_ok h⟩

/-! ## The loop -/

section Loop

variable {snapshots : Nat → Snapshot}

theorem endsNotExist_or (snapshot : Snapshot) : EndsNotExist snapshot ∨
    (∃ path, discoverSocket snapshot = .ok path) ∨
      ∃ err, discoverSocket snapshot = .error err ∧ err.isNotExist = false := by
  cases h : discoverSocket snapshot with
  | ok path => exact .inr (.inl ⟨path, rfl⟩)
  | error err =>
      cases hnot : err.isNotExist with
      | true => exact .inl ⟨err, h, hnot⟩
      | false => exact .inr (.inr ⟨err, rfl, hnot⟩)

theorem loop_again {left attempts : Nat} (h : EndsNotExist (snapshots attempts)) :
    discoverLoop snapshots (left + 1) attempts = discoverLoop snapshots left (attempts + 1) := by
  rcases h with ⟨err, herr, hnot⟩
  simp only [discoverLoop, herr, hnot, if_true]

/-- The loop goes on through attempts that end in not-exist. -/
theorem loop_skip (n left attempts : Nat) (h : ∀ j < n, EndsNotExist (snapshots (attempts + j))) :
    discoverLoop snapshots (left + n) attempts = discoverLoop snapshots left (attempts + n) := by
  induction n generalizing attempts with
  | zero => rfl
  | succ n ih =>
      have hfirst : EndsNotExist (snapshots attempts) := h 0 (Nat.succ_pos n)
      rw [← Nat.add_assoc, loop_again hfirst, ih]
      · rw [Nat.add_right_comm, Nat.add_assoc]
      · intro j hj
        have hnext := h (j + 1) (Nat.succ_lt_succ hj)
        rwa [← Nat.add_assoc, Nat.add_right_comm] at hnext

/-- The first attempt that ends otherwise decides. -/
theorem discoverSocket_first {i : Nat} (hi : i < 4) (h : ∀ j < i, EndsNotExist (snapshots j)) :
    DiscoverSocket snapshots = discoverLoop snapshots (4 - i) i := by
  have hskip := loop_skip i (4 - i) 0 fun j hj => (Nat.zero_add j).symm ▸ h j hj
  rw [Nat.sub_add_cancel (Nat.le_of_lt hi), Nat.zero_add] at hskip
  exact hskip

theorem first_ok {i : Nat} (hi : i < 4) (h : ∀ j < i, EndsNotExist (snapshots j)) {path : String}
    (hpath : discoverSocket (snapshots i) = .ok path) : DiscoverSocket snapshots = (path, none) := by
  rw [discoverSocket_first hi h]
  obtain ⟨left, hleft⟩ : ∃ left, 4 - i = left + 1 := ⟨3 - i, by omega⟩
  rw [hleft, discoverLoop, hpath]

theorem first_error {i : Nat} (hi : i < 4) (h : ∀ j < i, EndsNotExist (snapshots j)) {err : Error}
    (herr : discoverSocket (snapshots i) = .error err) (hnot : err.isNotExist = false) :
    DiscoverSocket snapshots = ("", some err) := by
  rw [discoverSocket_first hi h]
  obtain ⟨left, hleft⟩ : ∃ left, 4 - i = left + 1 := ⟨3 - i, by omega⟩
  simp only [hleft, discoverLoop, herr, hnot, Bool.false_eq_true, if_false]

/-- After four attempts without a result the loop ends like a success. -/
theorem all_missing (h : ∀ i < 4, EndsNotExist (snapshots i)) :
    DiscoverSocket snapshots = ("", none) := by
  exact loop_skip 4 0 0 fun j hj => (Nat.zero_add j).symm ▸ h j hj

/-- An empty path, by which the adapter's own `--socket` is overwritten. -/
theorem missing_drops_socket (h : ∀ i < 4, EndsNotExist (snapshots i)) (customSocketPath : String) :
    hostSocket customSocketPath true snapshots = some "" := by
  simp only [hostSocket, all_missing h, if_true]

theorem exists_first (h : ∃ i < 4, ¬ EndsNotExist (snapshots i)) :
    ∃ i < 4, ¬ EndsNotExist (snapshots i) ∧ ∀ j < i, EndsNotExist (snapshots j) := by
  classical
  obtain ⟨hi, hnot⟩ : Nat.find h < 4 ∧ ¬ EndsNotExist (snapshots (Nat.find h)) := Nat.find_spec h
  refine ⟨Nat.find h, hi, hnot, ?_⟩
  intro j hj
  by_contra hother
  exact Nat.find_min h hj ⟨Nat.lt_trans hj hi, hother⟩

theorem sound_of_ok {i : Nat} (hi : i < 4) (h : ∀ j < i, EndsNotExist (snapshots j)) {path : String}
    (hpath : discoverSocket (snapshots i) = .ok path) : Sound snapshots where
  found := by
    intro path' hpath'
    rw [first_ok hi h hpath] at hpath'
    cases hpath'
    exact ⟨i, hi, discoverSocket_ok hpath, h⟩
  missing := by
    intro hmissing
    rcases hmissing i hi with ⟨err, herr, _⟩
    rw [hpath] at herr
    cases herr
  failed := by
    intro k hk hbefore err herr hother
    rw [first_error hk hbefore herr hother]
    exact nofun

theorem sound_of_error {i : Nat} (hi : i < 4) (h : ∀ j < i, EndsNotExist (snapshots j)) {err : Error}
    (herr : discoverSocket (snapshots i) = .error err) (hnot : err.isNotExist = false) :
    Sound snapshots := by
  have hresult := first_error hi h herr hnot
  have hsome : (DiscoverSocket snapshots).2 ≠ none := by
    rw [hresult]
    exact nofun
  constructor
  · intro path hpath
    rw [hresult] at hpath
    cases hpath
  · exact fun _ => hsome
  · exact fun _ _ _ _ _ _ => hsome

end Loop

/-- Discovery is sound exactly when some attempt ends otherwise than in not-exist. -/
theorem sound_iff (snapshots : Nat → Snapshot) :
    Sound snapshots ↔ ∃ i < 4, ¬ EndsNotExist (snapshots i) := by
  constructor
  · intro hsound
    by_contra hall
    have hmissing : ∀ i < 4, EndsNotExist (snapshots i) := by
      intro i hi
      by_contra hnot
      exact hall ⟨i, hi, hnot⟩
    refine hsound.missing hmissing ?_
    rw [all_missing hmissing]
  · intro hsome
    rcases exists_first hsome with ⟨i, hi, hnot, hbefore⟩
    rcases (endsNotExist_or (snapshots i)).resolve_left hnot with ⟨path, hpath⟩ | ⟨err, herr, hother⟩
    · exact sound_of_ok hi hbefore hpath
    · exact sound_of_error hi hbefore herr hother

/-- A container without the daemon. -/
def noSocket : Snapshot where
  readDir := .ok [{ name := "1", isDir := true }, { name := "self", isDir := false }]
  stat _ := .error errNotExist

/-- Four attempts find nothing, and that is no error. -/
theorem nothing_found : DiscoverSocket (fun _ => noSocket) = ("", none) ∧
    ¬ Sound fun _ => noSocket := by
  have hnone : EndsNotExist noSocket := ⟨.fs errNotExist, by decide, rfl⟩
  have hmissing : ∀ i < 4, EndsNotExist ((fun _ : Nat => noSocket) i) := fun _ _ => hnone
  have hresult := all_missing hmissing
  refine ⟨hresult, fun hsound => ?_⟩
  refine hsound.missing hmissing ?_
  rw [hresult]

end TSymbiote.Utils
