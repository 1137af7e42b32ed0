import TSymbiote.Lib.FanOut
import TSymbiote.WebUI.CallHost

/-! # Profiles: collection and download

`Pprof` asks the adapters of the requested hosts for a profile and writes each
answer to a file named after the host. Of the reply the front end (`fetchPprof`)
reads only that it arrived; it then downloads the file of every host it asked
for. All commands share the files, and no file is ever removed.
-/

namespace TSymbiote.WebUI.Pprof

open Shared Transition FanOut

structure PprofInput where
  hosts : List String
  type : String
  deriving DecidableEq, Repr

structure PprofResult where
  error : String := ""
  host : String
  type : String := ""
  pprof : Bytes := []
  deriving DecidableEq, Repr

def pprofResult (input : PprofInput) (targetHost : String)
    (answer : Except CallError (Option Stream)) : PprofResult :=
  let result : PprofResult := { type := input.type, host := targetHost }
  match answer with
  | .error err => { result with error := err.text }
  | .ok body =>
      match (readAll body).err with
      | some err => { result with error := err.text }
      | none => { result with pprof := (readAll body).data }

/-- The goroutine `Pprof` starts for one host. -/
def pprofWorker (input : PprofInput) (targetHost : String)
    (answer : Except CallError (Option Stream)) : Go Unit PprofResult :=
  .send (pprofResult input targetHost answer) .ret

/-- The profile, when the whole of it arrived. -/
def profile (answer : Except CallError (Option Stream)) : Option Bytes :=
  match answer with
  | .error _ => none
  | .ok body =>
      match (readAll body).err with
      | some _ => none
      | none => some (readAll body).data

theorem pprofResult_profile {input : PprofInput} {targetHost : String}
    {answer : Except CallError (Option Stream)} {data : Bytes} (h : profile answer = some data) :
    pprofResult input targetHost answer = { type := input.type, host := targetHost, pprof := data } := by
  unfold profile at h
  split at h
  · contradiction
  · next body =>
      split at h
      · contradiction
      · next hread =>
          cases h
          simp only [pprofResult, hread]

theorem pprofResult_error (input : PprofInput) (targetHost : String)
    {answer : Except CallError (Option Stream)} (h : profile answer = none) :
    ∃ err : CallError, pprofResult input targetHost answer =
      { error := err.text, type := input.type, host := targetHost } := by
  unfold profile at h
  split at h
  · next err => exact ⟨err, rfl⟩
  · next body =>
      split at h
      · next err hread =>
          refine ⟨err, ?_⟩
          simp only [pprofResult, hread]
      · contradiction

/-! ## Files -/

/-- Which file a path of `os.Create` names, and which file's bytes answer a URL
of the front end. -/
structure Disk where
  resolve : String → String
  served : String → String

def basePath : String := "/tmp/TSymbiote/static/"

def writePath (host : String) : String := basePath ++ host ++ ".pprof"

def fetchUrl (hostId : String) : String := "/static/pprof/" ++ hostId ++ ".pprof"

/-- The file `writePprofToFile` writes for a host. -/
def Disk.written (d : Disk) (host : String) : String := d.resolve (writePath host)

/-- The file `fetchPprofFile` downloads for a host. -/
def Disk.fetched (d : Disk) (hostId : String) : String := d.served (fetchUrl hostId)

/-! ## Commands -/

/-- An entry of the front end's `results`. -/
inductive Output where
  | data (pprofData : Bytes) (hostname pprofType : String)
  | error (text pprofType : String)
  deriving DecidableEq, Repr

/-- Where a command stands: the handler at the channel of the next host, in
`os.Create` or in `file.Write`; then the front end at its downloads. -/
inductive Phase where
  | receiving (rest : List String)
  | creating (host : String) (data : Bytes) (rest : List String)
  | writing (host : String) (data : Bytes) (rest : List String)
  | fetching (rest : List String)
  | failed
  deriving DecidableEq, Repr

/-- `answers` and `kept` are history: what the adapters returned for this
command, and the hosts whose file it has written in full and has yet to
download. -/
structure Command where
  input : PprofInput
  phase : Phase
  pprofResp : List PprofResult := []
  results : GoMap Output := ∅
  answers : List (String × Bytes) := []
  kept : List String := []

structure State where
  files : GoMap Bytes
  commands : List Command

/-- The files of earlier processes are still there. -/
def start (files : GoMap Bytes) : State where
  files := files
  commands := []

inductive Op where
  | receive (answer : Except CallError (Option Stream))
  | create (ok : Bool)
  | write (n : Nat)
  | respond (ok : Bool)
  | fetchPprofFile (hostId : String) (failure : Option String)

inductive Action where
  | fetchPprof (input : PprofInput)
  | run (k : Nat) (op : Op)

def answered (host : String) (answer : Except CallError (Option Stream)) :
    List (String × Bytes) :=
  match profile answer with
  | none => []
  | some data => [(host, data)]

/-- The handler's next turn of its loop, after the entry of `host` in the reply.
The entry copies the error of the call; an error of the file is lost. -/
def Command.next (c : Command) (error host : String) (rest : List String) : Command :=
  { c with phase := .receiving rest, pprofResp := c.pprofResp ++ [{ error, host }] }

/-- What a download gives: a missing file is answered with a 404. -/
def download (file : Option Bytes) (failure : Option String) (hostId pprofType : String) :
    Output :=
  match failure, file with
  | some err, _ => .error err pprofType
  | none, none => .error "Failed to fetch pprof file: HTTP 404" pprofType
  | none, some pprofData => .data pprofData hostId pprofType

def Command.step (d : Disk) (files : GoMap Bytes) (c : Command) :
    Op → Option (GoMap Bytes × Command)
  | .receive answer =>
      match c.phase with
      | .receiving (targetHost :: rest) =>
          let res := pprofResult c.input targetHost answer
          let c := { c with answers := c.answers ++ answered targetHost answer }
          if res.error = "" then some (files, { c with phase := .creating res.host res.pprof rest })
          else some (files, c.next res.error res.host rest)
      | _ => none
  | .create ok =>
      match c.phase with
      | .creating host data rest =>
          -- `os.Create` truncates the file when it exists.
          if ok then
            some (files.insert (d.written host) [],
              { c with
                phase := .writing host data rest
                kept := c.kept.filter (d.written · ≠ d.written host) })
          else some (files, c.next "" host rest)
      | _ => none
  | .write n =>
      match c.phase with
      | .writing host data rest =>
          if n ≤ data.length then
            -- Each open file has its own offset, so two writers overwrite each other.
            let old := (files.lookup (d.written host)).getD []
            some (files.insert (d.written host) (data.take n ++ old.drop n),
              { c.next "" host rest with
                kept := if n = data.length then host :: c.kept else c.kept })
          else none
      | _ => none
  | .respond ok =>
      match c.phase with
      | .receiving [] =>
          if ok then some (files, { c with phase := .fetching c.input.hosts })
          else some (files, { c with phase := .failed, kept := [] })
      | _ => none
  | .fetchPprofFile hostId failure =>
      match c.phase with
      | .fetching rest =>
          if hostId ∈ rest then
            let output := download (files.lookup (d.fetched hostId)) failure hostId c.input.type
            some (files, { c with
              phase := .fetching (rest.erase hostId)
              results := c.results.insert hostId output
              kept := if hostId ∈ rest.erase hostId then c.kept
                else c.kept.filter (· ≠ hostId) })
          else none
      | _ => none

def step (d : Disk) (s : State) : Action → Option State
  | .fetchPprof input =>
      if input.hosts = [] then none
      else some { s with commands := s.commands ++ [{ input, phase := .receiving input.hosts }] }
  | .run k op =>
      match s.commands[k]? with
      | some c =>
          (c.step d s.files op).map fun r => { files := r.1, commands := s.commands.set k r.2 }
      | none => none

/-- Some front end holds bytes that no adapter returned for its command. -/
def Stale (s : State) : Prop :=
  ∃ c ∈ s.commands, ∃ host pprofData hostname pprofType,
    c.results.lookup host = some (.data pprofData hostname pprofType) ∧
      (host, pprofData) ∉ c.answers

/-! ## What one step can do -/

/-- The turns of a command, each under the phase it starts from. -/
inductive Command.Turn (d : Disk) (files : GoMap Bytes) (c : Command) :
    Op → GoMap Bytes → Command → Prop where
  | answered {host : String} {rest : List String} {answer : Except CallError (Option Stream)}
      {data : Bytes} (hdata : profile answer = some data)
      (hp : c.phase = .receiving (host :: rest)) :
      Turn d files c (.receive answer) files
        { c with phase := .creating host data rest, answers := c.answers ++ [(host, data)] }
  | refused {host : String} {rest : List String} {answer : Except CallError (Option Stream)}
      (err : CallError) (hdata : profile answer = none)
      (hp : c.phase = .receiving (host :: rest)) :
      Turn d files c (.receive answer) files (c.next err.text host rest)
  | created {host : String} {data : Bytes} {rest : List String}
      (hp : c.phase = .creating host data rest) :
      Turn d files c (.create true) (files.insert (d.written host) [])
        { c with
          phase := .writing host data rest
          kept := c.kept.filter (d.written · ≠ d.written host) }
  | uncreated {host : String} {data : Bytes} {rest : List String}
      (hp : c.phase = .creating host data rest) :
      Turn d files c (.create false) files (c.next "" host rest)
  | written {host : String} {data : Bytes} {rest : List String} (n : Nat)
      (hp : c.phase = .writing host data rest) :
      Turn d files c (.write n)
        (files.insert (d.written host)
          (data.take n ++ ((files.lookup (d.written host)).getD []).drop n))
        { c.next "" host rest with kept := if n = data.length then host :: c.kept else c.kept }
  | replied (hp : c.phase = .receiving []) :
      Turn d files c (.respond true) files { c with phase := .fetching c.input.hosts }
  | lost (hp : c.phase = .receiving []) :
      Turn d files c (.respond false) files { c with phase := .failed, kept := [] }
  | fetched {hostId : String} {rest : List String} (failure : Option String)
      (hp : c.phase = .fetching rest) :
      Turn d files c (.fetchPprofFile hostId failure) files
        { c with
          phase := .fetching (rest.erase hostId)
          results := c.results.insert hostId
            (download (files.lookup (d.fetched hostId)) failure hostId c.input.type)
          kept := if hostId ∈ rest.erase hostId then c.kept else c.kept.filter (· ≠ hostId) }

theorem step_turn {d : Disk} {files files' : GoMap Bytes} {c c' : Command} {op : Op}
    (h : c.step d files op = some (files', c')) : c.Turn d files op files' c' := by
  unfold Command.step at h
  split at h <;> split at h <;> try contradiction
  · next answer _ host rest hp =>
      cases hdata : profile answer with
      | some data =>
          simp only [pprofResult_profile hdata, answered, hdata, if_true] at h
          cases h
          exact .answered hdata hp
      | none =>
          rcases pprofResult_error c.input host hdata with ⟨err, hres⟩
          have hc : { c with answers := c.answers ++ answered host answer } = c := by
            simp [answered, hdata]
          simp only [hres, hc, if_neg err.nonempty] at h
          cases h
          exact .refused err hdata hp
  · next ok _ host data rest hp =>
      cases ok with
      | true =>
          cases h
          exact .created hp
      | false =>
          cases h
          exact .uncreated hp
  · next n _ host data rest hp =>
      split at h
      · cases h
        exact .written n hp
      · contradiction
  · next ok _ hp =>
      cases ok with
      | true =>
          cases h
          exact .replied hp
      | false =>
          cases h
          exact .lost hp
  · next hostId failure _ rest hp =>
      split at h
      · cases h
        exact .fetched failure hp
      · contradiction

/-! ## Who uses a file -/

def Command.Writes (d : Disk) (c : Command) (file : String) : Prop :=
  ∃ host data rest, c.phase = .writing host data rest ∧ d.written host = file

/-- It is writing the file, or has written it and will download it. -/
def Command.Uses (d : Disk) (c : Command) (file : String) : Prop :=
  c.Writes d file ∨ ∃ host ∈ c.kept, d.written host = file

/-- The step changes the file. -/
inductive Command.Touches (d : Disk) (c : Command) (file : String) : Op → Prop where
  | create {host : String} {data : Bytes} {rest : List String}
      (hp : c.phase = .creating host data rest) (hfile : d.written host = file) :
      Touches d c file (.create true)
  | write {n : Nat} (h : c.Writes d file) : Touches d c file (.write n)

/-- A download that finds a file finds the one that the command keeps. -/
def Command.Kept (d : Disk) (files : GoMap Bytes) (c : Command) : Op → Prop
  | .fetchPprofFile hostId none =>
      files.lookup (d.fetched hostId) = none ∨ (hostId ∈ c.kept ∧ d.fetched hostId = d.written hostId)
  | _ => True

/-- A file is created only when no other command uses it, and downloaded only by
a command that has written it, unless there is no such file. -/
def Exclusive (d : Disk) (s : State) : Action → Prop
  | .run k op =>
      ∀ c, s.commands[k]? = some c → c.Kept d s.files op ∧
        ∀ file, op = .create true → c.Touches d file op →
          ∀ j c', j ≠ k → s.commands[j]? = some c' → ¬ c'.Uses d file
  | .fetchPprof _ => True

section Footprint

variable {d : Disk} {files files' : GoMap Bytes} {c c' : Command} {op : Op} {file : String}

theorem turn_files (h : c.Turn d files op files' c') (file : String) :
    files'.lookup file = files.lookup file ∨ c.Touches d file op := by
  cases h with
  | answered | refused | uncreated | replied | lost | fetched => exact .inl rfl
  | created hp =>
      rw [lookup_insert_ite]
      split
      · next hfile => exact .inr (.create hp hfile.symm)
      · exact .inl rfl
  | written n hp =>
      rw [lookup_insert_ite]
      split
      · next hfile => exact .inr (.write ⟨_, _, _, hp, hfile.symm⟩)
      · exact .inl rfl

/-- Only a creation makes a command a writer. -/
theorem turn_writes (h : c.Turn d files op files' c') (hw : c'.Writes d file) :
    c.Touches d file op := by
  rcases hw with ⟨host, data, rest, hw, hfile⟩
  cases h with
  | created hp =>
      cases hw
      exact .create hp hfile
  | _ => cases hw

/-- Only the end of a write makes a command keep a file. -/
theorem turn_kept (h : c.Turn d files op files' c') {host : String} (hk : host ∈ c'.kept) :
    host ∈ c.kept ∨ c.Touches d (d.written host) op := by
  cases h with
  | answered | refused | uncreated | replied => exact .inl hk
  | created => exact .inl (List.mem_of_mem_filter hk)
  | lost => cases hk
  | written n hp =>
      dsimp only at hk
      split at hk
      · rcases List.mem_cons.mp hk with heq | hk
        · subst heq
          exact .inr (.write ⟨_, _, _, hp, rfl⟩)
        · exact .inl hk
      · exact .inl hk
  | fetched =>
      dsimp only at hk
      split at hk
      · exact .inl hk
      · exact .inl (List.mem_of_mem_filter hk)

theorem turn_uses (h : c.Turn d files op files' c') (hu : c'.Uses d file) :
    c.Uses d file ∨ c.Touches d file op := by
  rcases hu with hw | ⟨host, hk, hfile⟩
  · exact .inr (turn_writes h hw)
  · subst hfile
    exact (turn_kept h hk).imp (fun hk => .inr ⟨host, hk, rfl⟩) id

end Footprint

/-! ## The invariant -/

/-- What a command has stored, keeps and is about to write are answers to it. -/
structure Command.Sound (d : Disk) (files : GoMap Bytes) (c : Command) : Prop where
  stored : ∀ {host data hostname pprofType},
    c.results.lookup host = some (.data data hostname pprofType) → (host, data) ∈ c.answers
  kept : ∀ {host}, host ∈ c.kept → ∃ data, files.lookup (d.written host) = some data ∧
    (host, data) ∈ c.answers
  creating : ∀ {host data rest}, c.phase = .creating host data rest → (host, data) ∈ c.answers
  writing : ∀ {host data rest}, c.phase = .writing host data rest →
    files.lookup (d.written host) = some [] ∧ (host, data) ∈ c.answers ∧
      ∀ other ∈ c.kept, d.written other ≠ d.written host

/-- The files a command uses are all its soundness depends on. -/
theorem Command.Sound.frame {d : Disk} {files files' : GoMap Bytes} {c : Command}
    (hs : c.Sound d files)
    (hsame : ∀ file, c.Uses d file → files'.lookup file = files.lookup file) :
    c.Sound d files' where
  stored := hs.stored
  kept hk := by
    rw [hsame _ (.inr ⟨_, hk, rfl⟩)]
    exact hs.kept hk
  creating := hs.creating
  writing hp := by
    rw [hsame _ (.inl ⟨_, _, _, hp, rfl⟩)]
    exact hs.writing hp

/-- A command at neither end of a write has nothing to prove about the disk but
for what it keeps. -/
theorem Command.Sound.idle {d : Disk} {files : GoMap Bytes} {c c' : Command} (hs : c.Sound d files)
    (hresults : c'.results = c.results) (hanswers : c'.answers = c.answers)
    (hkept : c'.kept ⊆ c.kept) (hcreating : ∀ host data rest, c'.phase ≠ .creating host data rest)
    (hwriting : ∀ host data rest, c'.phase ≠ .writing host data rest) : c'.Sound d files where
  stored hl := by
    rw [hresults] at hl
    rw [hanswers]
    exact hs.stored hl
  kept hk := by
    rw [hanswers]
    exact hs.kept (hkept hk)
  creating hp := absurd hp (hcreating _ _ _)
  writing hp := absurd hp (hwriting _ _ _)

section Steps

variable {d : Disk} {files files' : GoMap Bytes} {c c' : Command} {op : Op} {host : String}

theorem Command.Sound.next (hs : c.Sound d files) (error host : String) (rest : List String) :
    (c.next error host rest).Sound d files :=
  hs.idle rfl rfl (List.Subset.refl _) (fun _ _ _ hp => nomatch hp) (fun _ _ _ hp => nomatch hp)

theorem Command.Sound.answered (hs : c.Sound d files) (data : Bytes) (rest : List String) :
    Command.Sound d files
      { c with phase := .creating host data rest, answers := c.answers ++ [(host, data)] } where
  stored hl := List.mem_append_left _ (hs.stored hl)
  kept hk := by
    rcases hs.kept hk with ⟨data, hdata, hmem⟩
    exact ⟨data, hdata, List.mem_append_left _ hmem⟩
  creating hp := by
    cases hp
    exact List.mem_append_right _ List.mem_cons_self
  writing hp := by cases hp

theorem Command.Sound.created (hs : c.Sound d files) {data : Bytes} {rest : List String}
    (hp : c.phase = .creating host data rest) :
    Command.Sound d (files.insert (d.written host) [])
      { c with
        phase := .writing host data rest
        kept := c.kept.filter (d.written · ≠ d.written host) } where
  stored := hs.stored
  kept := by
    intro other hk
    rcases List.mem_filter.mp hk with ⟨hk, hne⟩
    rw [lookup_insert_ite, if_neg (of_decide_eq_true hne)]
    exact hs.kept hk
  creating hp := by cases hp
  writing := by
    intro h data r hw
    cases hw
    refine ⟨AList.lookup_insert files, hs.creating hp, ?_⟩
    intro other hk
    exact of_decide_eq_true (List.mem_filter.mp hk).2

/-- The file is empty before the write, so a full write leaves the data. -/
theorem Command.Sound.written (hs : c.Sound d files) {data : Bytes} {rest : List String} (n : Nat)
    (hp : c.phase = .writing host data rest) :
    Command.Sound d
      (files.insert (d.written host)
        (data.take n ++ ((files.lookup (d.written host)).getD []).drop n))
      { c.next "" host rest with kept := if n = data.length then host :: c.kept else c.kept } where
  stored := hs.stored
  kept := by
    rcases hs.writing hp with ⟨hempty, hdata, hothers⟩
    have hold : ∀ other ∈ c.kept, ∃ old, (files.insert (d.written host)
        (data.take n ++ ((files.lookup (d.written host)).getD []).drop n)).lookup
          (d.written other) = some old ∧ (other, old) ∈ c.answers := by
      intro other hk
      rw [lookup_insert_ite, if_neg (hothers other hk)]
      exact hs.kept hk
    intro other hk
    dsimp only at hk
    split at hk
    · next hn =>
        rcases List.mem_cons.mp hk with heq | hk
        · subst heq
          refine ⟨data, ?_, hdata⟩
          rw [lookup_insert_ite, if_pos rfl, hempty, hn]
          simp
        · exact hold other hk
    · exact hold other hk
  creating hp := by cases hp
  writing hp := by cases hp

theorem Command.Sound.fetched (hs : c.Sound d files) {hostId : String} {rest : List String}
    (failure : Option String) (hkept : c.Kept d files (.fetchPprofFile hostId failure)) :
    Command.Sound d files
      { c with
        phase := .fetching (rest.erase hostId)
        results := c.results.insert hostId
          (download (files.lookup (d.fetched hostId)) failure hostId c.input.type)
        kept := if hostId ∈ rest.erase hostId then c.kept else c.kept.filter (· ≠ hostId) } where
  stored := by
    intro host data hostname pprofType hl
    rcases lookup_insert_cases hl with ⟨heq, hdata⟩ | ⟨_, hl⟩
    · subst heq
      unfold download at hdata
      split at hdata <;> try contradiction
      next pprofData hfile =>
        cases hdata
        rcases hkept with hnone | ⟨hk, hsame⟩
        · rw [hnone] at hfile
          contradiction
        · rcases hs.kept hk with ⟨data, hdata, hmem⟩
          rw [hsame, hdata] at hfile
          cases hfile
          exact hmem
    · exact hs.stored hl
  kept := by
    intro other hk
    dsimp only at hk
    split at hk
    · exact hs.kept hk
    · exact hs.kept (List.mem_of_mem_filter hk)
  creating hp := by cases hp
  writing hp := by cases hp

theorem Command.Sound.turn (hs : c.Sound d files) (hkept : c.Kept d files op)
    (h : c.Turn d files op files' c') : c'.Sound d files' := by
  cases h with
  | answered hdata hp => exact hs.answered _ _
  | refused err hdata hp => exact hs.next _ _ _
  | created hp => exact hs.created hp
  | uncreated hp => exact hs.next _ _ _
  | written n hp => exact hs.written n hp
  | replied hp =>
      exact hs.idle rfl rfl (List.Subset.refl _) (fun _ _ _ hp => nomatch hp)
        (fun _ _ _ hp => nomatch hp)
  | lost hp =>
      exact hs.idle rfl rfl (List.nil_subset _) (fun _ _ _ hp => nomatch hp)
        (fun _ _ _ hp => nomatch hp)
  | fetched failure hp => exact hs.fetched failure hkept

end Steps

/-- Every command is sound, and a file that is being written has one user. -/
structure Owned (d : Disk) (s : State) : Prop where
  sound : ∀ {k : Nat} {c : Command}, s.commands[k]? = some c → c.Sound d s.files
  alone : ∀ {i j : Nat} {a b : Command} {file : String}, s.commands[i]? = some a →
    s.commands[j]? = some b → a.Writes d file → b.Uses d file → i = j

theorem owned_start (d : Disk) (files : GoMap Bytes) : Owned d (start files) where
  sound hk := by cases hk
  alone hi := by cases hi

theorem Owned.not_stale {d : Disk} {s : State} (hi : Owned d s) : ¬ Stale s := by
  rintro ⟨c, hc, host, data, hostname, pprofType, hl, hnot⟩
  obtain ⟨k, hk⟩ := List.mem_iff_getElem?.mp hc
  exact hnot ((hi.sound hk).stored hl)

section Runs

variable {d : Disk} {s t : State} {k : Nat} {op : Op} {c c' : Command}

/-- No other command uses a file that an admitted step changes. -/
theorem Owned.apart (hi : Owned d s) (hok : Exclusive d s (.run k op))
    (hk : s.commands[k]? = some c) {file : String} (ht : c.Touches d file op) {j : Nat}
    {b : Command} (hjk : j ≠ k) (hj : s.commands[j]? = some b) : ¬ b.Uses d file := by
  cases ht with
  | create hp hfile => exact (hok c hk).2 file rfl (.create hp hfile) j b hjk hj
  | write hw => exact fun hu => hjk (hi.alone hk hj hw hu).symm

theorem Owned.run (hi : Owned d s) (hok : Exclusive d s (.run k op))
    (hk : s.commands[k]? = some c) {files' : GoMap Bytes} (h : c.Turn d s.files op files' c') :
    Owned d { files := files', commands := s.commands.set k c' } where
  sound := by
    intro j b hj
    rcases getElem?_set_cases hj with ⟨_, hb⟩ | ⟨hkj, hj⟩
    · rw [hb]
      exact (hi.sound hk).turn (hok c hk).1 h
    · refine (hi.sound hj).frame ?_
      intro file hu
      rcases turn_files h file with hsame | ht
      · exact hsame
      · exact absurd hu (hi.apart hok hk ht (Ne.symm hkj) hj)
  alone := by
    intro i j a b file hi' hj' hw hu
    rcases getElem?_set_cases hi' with ⟨hki, ha⟩ | ⟨hki, hia⟩ <;>
      rcases getElem?_set_cases hj' with ⟨hkj, hb⟩ | ⟨hkj, hjb⟩
    · exact hki.symm.trans hkj
    · rw [ha] at hw
      exact absurd hu (hi.apart hok hk (turn_writes h hw) (Ne.symm hkj) hjb)
    · rw [hb] at hu
      rcases turn_uses h hu with hu | ht
      · exact (hi.alone hia hk hw hu).trans hkj
      · exact absurd (.inl hw) (hi.apart hok hk ht (Ne.symm hki) hia)
    · exact hi.alone hia hjb hw hu

theorem Command.Sound.fetchPprof (d : Disk) (files : GoMap Bytes) (input : PprofInput) :
    Command.Sound d files { input, phase := .receiving input.hosts } where
  stored hl := by cases hl
  kept hk := by cases hk
  creating hp := by cases hp
  writing hp := by cases hp

theorem not_uses_fetchPprof (d : Disk) (input : PprofInput) (file : String) :
    ¬ Command.Uses d { input, phase := .receiving input.hosts } file := by
  rintro (⟨host, data, rest, hp, _⟩ | ⟨host, hk, _⟩)
  · cases hp
  · cases hk

theorem Owned.fetchPprof (hi : Owned d s) (input : PprofInput) :
    Owned d { s with
      commands := s.commands ++ [{ input, phase := .receiving input.hosts }] } where
  sound := by
    intro k c hk
    rcases getElem?_concat_cases hk with hk | hc
    · exact hi.sound hk
    · subst hc
      exact .fetchPprof d s.files input
  alone := by
    intro i j a b file hia hjb hw hu
    rcases getElem?_concat_cases hjb with hjb | hb
    · rcases getElem?_concat_cases hia with hia | ha
      · exact hi.alone hia hjb hw hu
      · subst ha
        exact absurd (.inl hw) (not_uses_fetchPprof d input file)
    · subst hb
      exact absurd hu (not_uses_fetchPprof d input file)

theorem Owned.step {a : Action} (hi : Owned d s) (hok : Exclusive d s a)
    (h : step d s a = some t) : Owned d t := by
  unfold Pprof.step at h
  split at h
  · next input =>
      split at h
      · contradiction
      · cases h
        exact hi.fetchPprof input
  · next k op =>
      split at h
      · next c hk =>
          rcases Option.map_eq_some_iff.mp h with ⟨⟨files', c'⟩, hc, ht⟩
          subst ht
          exact hi.run hok hk (step_turn hc)
      · contradiction

end Runs

/-- While no command creates a file that another one uses, and none downloads a
file it has not written, every front end holds answers to its own command. -/
theorem fresh_of_exclusive {d : Disk} {files : GoMap Bytes} {s : State}
    (h : ReachesWhen (step d) (Exclusive d) (start files) s) : ¬ Stale s :=
  (h.invariant Owned.step (owned_start d files)).not_stale

/-! ## Commands for one host -/

/-- Paths without links, and a file server that strips the prefix of the URL. -/
def plainDisk : Disk where
  resolve path := path
  served url := basePath ++ String.ofList (url.toList.drop "/static/pprof/".length)

def oneHost : PprofInput := { hosts := ["node"], type := "heap" }

def failedCall : CallError := statusError 500

def answeredCall (data : Bytes) : Except CallError (Option Stream) := .ok (some { data })

theorem exclusive_of_single {d : Disk} {s : State} {c : Command} (hc : s.commands = [c]) {op : Op}
    (hkept : c.Kept d s.files op) : Exclusive d s (.run 0 op) := by
  intro c₁ hk
  rw [hc] at hk
  cases hk
  refine ⟨hkept, ?_⟩
  intro file _ _ j c₂ hj hget
  rw [hc] at hget
  have hlt := (List.getElem?_eq_some_iff.mp hget).1
  rw [List.length_singleton] at hlt
  omega

theorem fresh_of_exclusive_single :
    ∃ s, ReachesWhen (step plainDisk) (Exclusive plainDisk) (start ∅) s ∧
      (∃ c ∈ s.commands, c.results.lookup "node" = some (.data [1, 2] "node" "heap")) ∧
        ¬ Stale s := by
  have hrun : ReachesWhen (step plainDisk) (Exclusive plainDisk) (start ∅) _ :=
    .head (l := .fetchPprof oneHost) trivial rfl <|
      .head (l := .run 0 (.receive (answeredCall [1, 2]))) (exclusive_of_single rfl trivial) rfl <|
        .head (l := .run 0 (.create true)) (exclusive_of_single rfl trivial) rfl <|
          .head (l := .run 0 (.write 2)) (exclusive_of_single rfl trivial) rfl <|
            .head (l := .run 0 (.respond true)) (exclusive_of_single rfl trivial) rfl <|
              .head (l := .run 0 (.fetchPprofFile "node" none))
                (exclusive_of_single rfl (.inr ⟨List.mem_cons_self, by decide⟩)) rfl (.refl _)
  exact ⟨_, hrun, ⟨_, List.mem_cons_self, rfl⟩, fresh_of_exclusive hrun⟩

/-- A command that succeeds, and a later one whose adapter fails. -/
def earlierProfile : List Action :=
  [.fetchPprof oneHost, .run 0 (.receive (answeredCall [1])), .run 0 (.create true),
    .run 0 (.write 1), .run 0 (.respond true), .run 0 (.fetchPprofFile "node" none),
    .fetchPprof oneHost, .run 1 (.receive (.error failedCall)), .run 1 (.respond true),
    .run 1 (.fetchPprofFile "node" none)]

/-- The front end of the second command shows the profile of the first. -/
theorem earlier_profile_stale : ∃ s, Reaches (step plainDisk) (start ∅) s ∧ Stale s := by
  have hrun : execute (step plainDisk) (start ∅) earlierProfile = some _ := rfl
  refine ⟨_, execute_reaches hrun, _, List.mem_cons_of_mem _ List.mem_cons_self, "node", [1],
    "node", "heap", rfl, ?_⟩
  exact List.not_mem_nil

end TSymbiote.WebUI.Pprof
