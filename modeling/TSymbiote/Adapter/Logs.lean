import TSymbiote.Lib.Transition
import TSymbiote.Shared.Websocket

/-! # Log lines and the scanner's buffer

The scanner of the log stream hands out each line as a region of its buffer, and
the message on the channel carries that region. The channel is unbuffered: the
send is over when the writer has received, and the scanner may then overwrite
the buffer while the writer is still copying from it. A buffer that has become
too small is left as it is for a larger one.
-/

namespace TSymbiote.Adapter.Logs

open Shared Transition

/-- What `scanner.Bytes()` returns: a part of one of the scanner's arrays. -/
structure Region where
  array : Nat
  offset : Nat
  length : Nat
  deriving DecidableEq, Repr

def slice (memory : List Bytes) (r : Region) : Bytes :=
  ((memory[r.array]?.getD []).drop r.offset).take r.length

inductive ScannerPc where
  | scanning
  | sending (r : Region)
  | done
  deriving DecidableEq, Repr

/-- `copied` is what `WriteMessage` has taken of the region so far. -/
inductive WriterPc where
  | selecting
  | writing (r : Region) (copied : Bytes)
  | done
  deriving DecidableEq, Repr

/-- `current` is the array the scanner works in. -/
structure State where
  memory : List Bytes
  current : Nat
  scanner : ScannerPc
  writer : WriterPc
  scanned : List Bytes
  written : List Bytes
  deriving DecidableEq, Repr

def start : State where
  memory := [[]]
  current := 0
  scanner := .scanning
  writer := .selecting
  scanned := []
  written := []

inductive ScannerAction where
  | overwrite (buffer : Bytes)
  | grow (buffer : Bytes)
  | scanned (r : Region)
  | ended
  deriving DecidableEq, Repr

inductive WriterAction where
  | receive
  | copy
  | written
  | stop
  deriving DecidableEq, Repr

inductive Action where
  | scanner (a : ScannerAction)
  | writer (a : WriterAction)
  deriving DecidableEq, Repr

/-- `Scan` moves and refills the buffer until a line lies in it, which is the
next one of the stream. -/
def logStreamScannerFunc (lines : Nat → Option Bytes) (s : State) : ScannerAction → Option State
  | .overwrite buffer =>
      if s.scanner = .scanning ∧ buffer.length = (s.memory[s.current]?.getD []).length then
        some { s with memory := s.memory.set s.current buffer }
      else none
  | .grow buffer =>
      if s.scanner = .scanning then
        some { s with memory := s.memory ++ [buffer], current := s.memory.length }
      else none
  | .scanned r =>
      if s.scanner = .scanning ∧ r.array = s.current ∧
          r.offset + r.length ≤ (s.memory[s.current]?.getD []).length ∧
          lines s.scanned.length = some (slice s.memory r) then
        some { s with scanner := .sending r, scanned := s.scanned ++ [slice s.memory r] }
      else none
  | .ended => if s.scanner = .scanning then some { s with scanner := .done } else none

/-- `stop` covers shutdown, the death of the socket and a failed write. -/
def websocketWriter (s : State) : WriterAction → Option State
  | .receive =>
      match s.writer, s.scanner with
      | .selecting, .sending r => some { s with writer := .writing r [], scanner := .scanning }
      | _, _ => none
  | .copy =>
      match s.writer with
      | .writing r copied =>
          ((slice s.memory r)[copied.length]?).map fun byte =>
            { s with writer := .writing r (copied ++ [byte]) }
      | _ => none
  | .written =>
      match s.writer with
      | .writing r copied =>
          if copied.length = r.length then
            some { s with writer := .selecting, written := s.written ++ [copied] }
          else none
      | _ => none
  | .stop => if s.writer = .done then none else some { s with writer := .done }

def step (lines : Nat → Option Bytes) (s : State) : Action → Option State
  | .scanner a => logStreamScannerFunc lines s a
  | .writer a => websocketWriter s a

/-- Some message is not the line of its place. -/
def Mangled (s : State) : Prop := ¬ s.written <+: s.scanned

/-- While the writer has a message, `Scan` leaves the bytes of it alone that are
still to be copied. -/
def Untouched (s : State) : Action → Prop
  | .scanner (.overwrite buffer) => ∀ r copied, s.writer = .writing r copied →
      (slice (s.memory.set s.current buffer) r).drop copied.length =
        (slice s.memory r).drop copied.length
  | _ => True

/-! ## Regions -/

variable {lines : Nat → Option Bytes} {s t : State}

theorem slice_length (memory : List Bytes) (r : Region) :
    (slice memory r).length = min r.length ((memory[r.array]?.getD []).length - r.offset) := by
  unfold slice
  rw [List.length_take, List.length_drop]

theorem slice_grow {memory : List Bytes} {r : Region} (h : (slice memory r).length = r.length)
    (buffer : Bytes) : slice (memory ++ [buffer]) r = slice memory r := by
  by_cases hlt : r.array < memory.length
  · unfold slice
    rw [List.getElem?_append_left hlt]
  · have hnone : memory[r.array]? = none := List.getElem?_eq_none_iff.mpr (by omega)
    rw [slice_length, hnone] at h
    have hzero : r.length = 0 := by simpa using h.symm
    unfold slice
    rw [hzero, List.take_zero, List.take_zero]

theorem slice_overwrite_length {memory : List Bytes} {current : Nat} {buffer : Bytes}
    (h : buffer.length = (memory[current]?.getD []).length) (r : Region) :
    (slice (memory.set current buffer) r).length = (slice memory r).length := by
  rw [slice_length, slice_length, List.getElem?_set]
  split
  · next hsame =>
      rw [← hsame]
      split
      · rw [Option.getD_some, h]
      · next hlt => rw [List.getElem?_eq_none_iff.mpr (by omega)]
  · rfl

/-! ## One step -/

def ScannerPc.pending : ScannerPc → Nat
  | .sending _ => 1
  | _ => 0

/-- The messages written are the lines scanned, and so will be the one the
writer has, as far as it has been copied, and the one on the channel. -/
structure Intact (s : State) : Prop where
  written : s.written <+: s.scanned
  selecting : s.writer = .selecting → s.scanned.length = s.written.length + s.scanner.pending
  sending : ∀ {r}, s.scanner = .sending r →
    (slice s.memory r).length = r.length ∧ s.scanned.getLast? = some (slice s.memory r)
  writing : ∀ {r copied}, s.writer = .writing r copied →
    (slice s.memory r).length = r.length ∧
      s.scanned[s.written.length]? = some (copied ++ (slice s.memory r).drop copied.length) ∧
      s.scanned.length = s.written.length + 1 + s.scanner.pending

theorem start_intact : Intact start where
  written := List.nil_prefix
  selecting _ := rfl
  sending h := by cases h
  writing h := by cases h

theorem prefix_snoc_iff {α : Type} {l m : List α} (h : l <+: m) (a : α) :
    l ++ [a] <+: m ↔ m[l.length]? = some a := by
  rcases h with ⟨rest, rfl⟩
  rw [List.prefix_append_right_inj, List.getElem?_append_right (Nat.le_refl _), Nat.sub_self]
  cases rest with
  | nil => simp
  | cons b rest => simp [eq_comm]

/-! `Scan` moves bytes only outside what is still to be copied. -/

theorem Intact.overwrite {buffer : Bytes} (hs : Intact s) (hscan : s.scanner = .scanning)
    (hlen : buffer.length = (s.memory[s.current]?.getD []).length)
    (hok : Untouched s (.scanner (.overwrite buffer))) :
    Intact { s with memory := s.memory.set s.current buffer } where
  written := hs.written
  selecting := hs.selecting
  sending := by
    intro r hr
    exact absurd (hscan.symm.trans hr) (by simp)
  writing := by
    intro r copied hw
    rcases hs.writing hw with ⟨hvalid, hline, hcount⟩
    refine ⟨(slice_overwrite_length hlen r).trans hvalid, ?_, hcount⟩
    dsimp only
    rw [hok r copied hw]
    exact hline

theorem Intact.grow (hs : Intact s) (hscan : s.scanner = .scanning) (buffer : Bytes) :
    Intact { s with memory := s.memory ++ [buffer], current := s.memory.length } where
  written := hs.written
  selecting := hs.selecting
  sending := by
    intro r hr
    exact absurd (hscan.symm.trans hr) (by simp)
  writing := by
    intro r copied hw
    rcases hs.writing hw with ⟨hvalid, hline, hcount⟩
    dsimp only
    rw [slice_grow hvalid]
    exact ⟨hvalid, hline, hcount⟩

theorem Intact.scanned (hs : Intact s) (hscan : s.scanner = .scanning) {r : Region}
    (harray : r.array = s.current)
    (hbound : r.offset + r.length ≤ (s.memory[s.current]?.getD []).length) :
    Intact { s with scanner := .sending r, scanned := s.scanned ++ [slice s.memory r] } where
  written := hs.written.trans (List.prefix_append _ _)
  selecting := by
    intro hw
    have hcount := hs.selecting hw
    rw [hscan] at hcount
    simp only [List.length_append, List.length_singleton, ScannerPc.pending] at hcount ⊢
    omega
  sending := by
    intro r' hr'
    cases hr'
    constructor
    · rw [slice_length, harray]
      show min r.length ((s.memory[s.current]?.getD []).length - r.offset) = r.length
      omega
    · exact List.getLast?_concat
  writing := by
    intro r' copied hw
    rcases hs.writing hw with ⟨hvalid, hline, hcount⟩
    rw [hscan] at hcount
    simp only [ScannerPc.pending] at hcount
    refine ⟨hvalid, ?_, ?_⟩
    · have hlt : s.written.length < s.scanned.length := by omega
      exact (List.getElem?_append_left hlt).trans hline
    · simp only [List.length_append, List.length_singleton, ScannerPc.pending]
      omega

theorem Intact.ended (hs : Intact s) (hscan : s.scanner = .scanning) :
    Intact { s with scanner := .done } where
  written := hs.written
  selecting := by
    intro hw
    have hcount := hs.selecting hw
    rw [hscan] at hcount
    exact hcount
  sending hr := by cases hr
  writing := by
    intro r copied hw
    rcases hs.writing hw with ⟨hvalid, hline, hcount⟩
    rw [hscan] at hcount
    exact ⟨hvalid, hline, hcount⟩

theorem scanner_intact {a : ScannerAction} (hs : Intact s) (hok : Untouched s (.scanner a))
    (h : logStreamScannerFunc lines s a = some t) : Intact t := by
  unfold logStreamScannerFunc at h
  cases a <;> dsimp only at h <;> split at h <;> cases h
  case overwrite buffer hscan => exact hs.overwrite hscan.1 hscan.2 hok
  case grow buffer hscan => exact hs.grow hscan buffer
  case scanned r hscan => exact hs.scanned hscan.1 hscan.2.1 hscan.2.2.1
  case ended hscan => exact hs.ended hscan

/-! The writer copies the line it has received. -/

theorem Intact.receive {r : Region} (hs : Intact s) (hw : s.writer = .selecting)
    (hscan : s.scanner = .sending r) :
    Intact { s with writer := .writing r [], scanner := .scanning } where
  written := hs.written
  selecting hw' := by cases hw'
  sending hr' := by cases hr'
  writing := by
    intro r' copied hw'
    cases hw'
    rcases hs.sending hscan with ⟨hvalid, hlast⟩
    have hcount := hs.selecting hw
    rw [hscan] at hcount
    simp only [ScannerPc.pending] at hcount
    refine ⟨hvalid, ?_, hcount⟩
    rw [List.getLast?_eq_getElem?, hcount, Nat.add_sub_cancel] at hlast
    exact hlast

theorem Intact.copy {r : Region} {copied : Bytes} {byte : UInt8} (hs : Intact s)
    (hw : s.writer = .writing r copied) (hbyte : (slice s.memory r)[copied.length]? = some byte) :
    Intact { s with writer := .writing r (copied ++ [byte]) } where
  written := hs.written
  selecting hw' := by cases hw'
  sending := hs.sending
  writing := by
    intro r' copied' hw'
    cases hw'
    rcases hs.writing hw with ⟨hvalid, hline, hcount⟩
    refine ⟨hvalid, ?_, hcount⟩
    obtain ⟨hlt, hget⟩ := List.getElem?_eq_some_iff.mp hbyte
    rw [List.drop_eq_getElem_cons hlt, hget] at hline
    rw [List.length_append, List.length_singleton, List.append_assoc]
    exact hline

theorem Intact.wrote {r : Region} {copied : Bytes} (hs : Intact s)
    (hw : s.writer = .writing r copied) (hlen : copied.length = r.length) :
    Intact { s with writer := .selecting, written := s.written ++ [copied] } := by
  rcases hs.writing hw with ⟨hvalid, hline, hcount⟩
  rw [List.drop_eq_nil_of_le (by omega), List.append_nil] at hline
  constructor
  · exact (prefix_snoc_iff hs.written copied).mpr hline
  · intro _
    dsimp only
    rw [List.length_append, List.length_singleton]
    exact hcount
  · exact hs.sending
  · intro r' copied' hw'
    cases hw'

theorem Intact.stop (hs : Intact s) : Intact { s with writer := .done } where
  written := hs.written
  selecting hw := by cases hw
  sending := hs.sending
  writing hw := by cases hw

theorem writer_intact {a : WriterAction} (hs : Intact s) (h : websocketWriter s a = some t) :
    Intact t := by
  unfold websocketWriter at h
  cases a with
  | receive =>
      dsimp only at h
      split at h
      · next r hw hscan =>
          cases h
          exact hs.receive hw hscan
      · contradiction
  | copy =>
      dsimp only at h
      split at h
      · next r copied hw =>
          rcases Option.map_eq_some_iff.mp h with ⟨byte, hbyte, ht⟩
          subst ht
          exact hs.copy hw hbyte
      · contradiction
  | written =>
      dsimp only at h
      split at h
      · next r copied hw =>
          split at h
          · next hlen =>
              cases h
              exact hs.wrote hw hlen
          · contradiction
      · contradiction
  | stop =>
      dsimp only at h
      split at h
      · contradiction
      · cases h
        exact hs.stop

theorem step_intact {a : Action} (hs : Intact s) (hok : Untouched s a)
    (h : step lines s a = some t) : Intact t := by
  cases a with
  | scanner a => exact scanner_intact hs hok h
  | writer a => exact writer_intact hs h

/-! ## Lines that are overwritten -/

/-- The writer takes the rest of the region as it now is. -/
theorem reaches_copied {r : Region} {copied : Bytes} (hw : s.writer = .writing r copied)
    (hle : copied.length ≤ (slice s.memory r).length) :
    Reaches (step lines) s
      { s with writer := .writing r (copied ++ (slice s.memory r).drop copied.length) } := by
  induction hk : (slice s.memory r).length - copied.length generalizing s copied with
  | zero =>
      rw [List.drop_eq_nil_of_le (by omega), List.append_nil, ← hw]
      exact Reaches.refl s
  | succ k ih =>
      have hlt : copied.length < (slice s.memory r).length := by omega
      have hcopy : step lines s (.writer .copy) =
          some { s with writer := .writing r (copied ++ [(slice s.memory r)[copied.length]]) } := by
        simp only [step, websocketWriter, hw, List.getElem?_eq_getElem hlt, Option.map_some]
      have hlen : (copied ++ [(slice s.memory r)[copied.length]]).length = copied.length + 1 := by
        rw [List.length_append, List.length_singleton]
      have hrest := ih (s := { s with
        writer := .writing r (copied ++ [(slice s.memory r)[copied.length]]) }) rfl
        (by rw [hlen]; exact hlt) (by rw [hlen]; dsimp only; omega)
      rw [List.length_append, List.length_singleton, List.append_assoc, List.singleton_append,
        ← List.drop_eq_getElem_cons hlt] at hrest
      exact Reaches.head hcopy hrest

theorem reaches_mangled {r : Region} {copied line : Bytes} (hw : s.writer = .writing r copied)
    (hle : copied.length ≤ (slice s.memory r).length) (hvalid : (slice s.memory r).length = r.length)
    (hwritten : s.written <+: s.scanned) (hline : s.scanned[s.written.length]? = some line)
    (hne : copied ++ (slice s.memory r).drop copied.length ≠ line) :
    ∃ u, Reaches (step lines) s u ∧ Mangled u := by
  have hlen : (copied ++ (slice s.memory r).drop copied.length).length = r.length := by
    rw [List.length_append, List.length_drop]
    omega
  have hwrite : step lines
      { s with writer := .writing r (copied ++ (slice s.memory r).drop copied.length) }
      (.writer .written) = some { s with
        writer := .selecting
        written := s.written ++ [copied ++ (slice s.memory r).drop copied.length] } := by
    simp only [step, websocketWriter, hlen, if_true]
  refine ⟨_, (reaches_copied hw hle).tail hwrite, ?_⟩
  intro hprefix
  have hget := (prefix_snoc_iff hwritten _).mp hprefix
  exact hne (Option.some.inj (hget.symm.trans hline))

theorem touched_mangled {a : Action} (hs : Intact s) (h : step lines s a = some t)
    (hok : ¬ Untouched s a) : ∃ u, Reaches (step lines) t u ∧ Mangled u := by
  cases a with
  | writer a => exact absurd trivial hok
  | scanner a =>
      cases a with
      | overwrite buffer =>
          unfold Untouched at hok
          simp only [not_forall] at hok
          rcases hok with ⟨r, copied, hw, hchanged⟩
          obtain ⟨hvalid, hline, _⟩ := hs.writing hw
          unfold step logStreamScannerFunc at h
          dsimp only at h
          split at h
          · next hscan =>
              cases h
              have hlength := slice_overwrite_length hscan.2 r
              have hle : copied.length ≤ (slice (s.memory.set s.current buffer) r).length := by
                by_contra hgt
                apply hchanged
                rw [List.drop_eq_nil_of_le (by omega), List.drop_eq_nil_of_le (by omega)]
              refine reaches_mangled (r := r) hw hle (hlength.trans hvalid) hs.written hline ?_
              exact fun hsame => hchanged (List.append_cancel_left hsame)
          · contradiction
      | _ => exact absurd trivial hok

/-- `Untouched` is exactly what keeps the lines intact. -/
theorem mangled_guards (lines : Nat → Option Bytes) :
    Guards (step lines) Untouched Mangled start :=
  Guards.of_invariant start_intact step_intact (fun hs hmangled => hmangled hs.written)
    touched_mangled

/-- While the writer has the first of two lines of the same length, the scanner reads
the second to the same place. -/
theorem overwritten {first second : Bytes} (rest : Bytes) (hlen : second.length = first.length)
    (hne : first ≠ second) :
    ∃ s, Reaches (step fun n => [first, second][n]?) start s ∧ s.scanned = [first, second] ∧
      s.written = [second] ∧ Mangled s := by
  let r : Region := ⟨1, 0, first.length⟩
  have hfirst : slice [[], first ++ rest] r = first := by simp [slice, r]
  have hsecond : slice [[], second ++ rest] r = second := by simp [slice, r, ← hlen]
  have hread : execute (step fun n => [first, second][n]?) start
      [.scanner (.grow (first ++ rest)), .scanner (.scanned r), .writer .receive] =
        some ⟨[[], first ++ rest], 1, .scanning, .writing r [], [first], []⟩ := by
    simp [execute, step, logStreamScannerFunc, websocketWriter, start, hfirst, r]
  have hover : execute (step fun n => [first, second][n]?)
      ⟨[[], first ++ rest], 1, .scanning, .writing r [], [first], []⟩
      [.scanner (.overwrite (second ++ rest)), .scanner (.scanned r)] =
        some ⟨[[], second ++ rest], 1, .sending r, .writing r [], [first, second], []⟩ := by
    simp [execute, step, logStreamScannerFunc, hsecond, hlen, r]
  have hcopied : Reaches (step fun n => [first, second][n]?)
      ⟨[[], second ++ rest], 1, .sending r, .writing r [], [first, second], []⟩
      ⟨[[], second ++ rest], 1, .sending r, .writing r second, [first, second], []⟩ := by
    have hcopy : ∀ u : State, slice u.memory r = second → u.writer = .writing r [] →
        Reaches (step fun n => [first, second][n]?) u { u with writer := .writing r second } := by
      intro u hslice hwriter
      have hrest := @reaches_copied (fun n => [first, second][n]?) u r [] hwriter (Nat.zero_le _)
      rw [hslice] at hrest
      exact hrest
    exact hcopy _ hsecond rfl
  refine ⟨⟨[[], second ++ rest], 1, .sending r, .selecting, [first, second], [second]⟩, ?_, rfl,
    rfl, ?_⟩
  · refine ((execute_reaches hread).trans ((execute_reaches hover).trans hcopied)).tail
      (l := .writer .written) ?_
    simp [step, websocketWriter, hlen, r]
  · unfold Mangled
    simp [List.cons_prefix_cons, hne.symm]

/-- In the scanner's first array of 4096 bytes there is room for one line of 3000. -/
theorem second_line_overwrites :
    ∃ s, Reaches (step fun n => [List.replicate 3000 1, List.replicate 3000 2][n]?) start s ∧
      s.scanned = [List.replicate 3000 1, List.replicate 3000 2] ∧
      s.written = [List.replicate 3000 2] ∧ Mangled s := by
  refine overwritten (10 :: List.replicate 1095 0) ?_ ?_
  · rw [List.length_replicate, List.length_replicate]
  · intro h
    exact absurd (List.replicate_right_inj (by decide) |>.mp h) (by decide)

end TSymbiote.Adapter.Logs
