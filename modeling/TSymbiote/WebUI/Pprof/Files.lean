import TSymbiote.Lib.Url
import TSymbiote.WebUI.Pprof

/-! # The file of a host

`writePprofToFile` puts a host's name into a path, and the front end puts it into
a URL, neither with a check or an escape. The name comes from the adapter's
machine. Here it is determined for which names both are the same file, directly
in the directory of the profiles and no other host's.
-/

namespace TSymbiote.WebUI.Pprof

open Shared TSymbiote.Path Url
open scoped Strings

/-- `/tmp/TSymbiote/static`, where `http.Dir` looks as well. -/
def static : List Name := [bytes "tmp", bytes "TSymbiote", bytes "static"]

/-- `/static/pprof`, which is stripped. -/
def servedPrefix : List Name := [bytes "static", bytes "pprof"]

/-- The file `os.Create` makes for a host, on a disk with these directories and no
links; a path with a NUL is refused. -/
def diskFile (isDir : List Name → Bool) (host : String) : Option (List Name) :=
  if 0 ∈ bytes (writePath host) then none
  else resolve isDir [] ((bytes (writePath host)).splitOn slash)

/-- The file that answers the URL of `fetchPprofFile`. -/
def webFile (hostId : String) : Option (List Name) :=
  servedFile static servedPrefix (browserPath (bytes (fetchUrl hostId)))

/-- A disk after `os.MkdirAll`, and the hosts under which profiles are written. -/
structure Written where
  isDir : List Name → Bool
  made : ∀ dir, dir <+: static → isDir dir = true
  hosts : List String
  created : ∀ host ∈ hosts, (diskFile isDir host).isSome = true

/-- Every host has a file of its own in the directory, and downloads that file.

It is also no other's: profiles of further hosts can be there from other requests,
with names that are no paths. -/
structure Isolated (w : Written) : Prop where
  confined : ∀ host ∈ w.hosts, ∃ name, diskFile w.isDir host = some (static ++ [name])
  distinct : ∀ host ∈ w.hosts, ∀ other, other ∈ w.hosts ∨ '/' ∉ other.toList → other ≠ host →
    diskFile w.isDir other ≠ diskFile w.isDir host
  reachable : ∀ host ∈ w.hosts, webFile host = diskFile w.isDir host

/-- No character of the name means something in a path or a URL. -/
def PlainHost (host : String) : Prop :=
  ∀ c ∈ host.toList, c ∉ ['/', '\\', '%', '?', '#', '\t', '\n', '\r']

instance (host : String) : Decidable (PlainHost host) :=
  inferInstanceAs (Decidable (∀ c ∈ host.toList, _))

/-! ## The path of a host's file -/

def fileName (host : String) : Name := bytes (host ++ ".pprof")

variable {isDir : List Name → Bool} {host other : String}

theorem bytes_writePath (host : String) :
    bytes (writePath host) = text (static ++ [fileName host]) := by
  have hbase : bytes basePath = text static ++ [slash] := by decide
  unfold writePath fileName
  rw [String.append_assoc, bytes_append, hbase, text_append, text_singleton, List.append_assoc,
    List.singleton_append]

theorem bytes_fetchUrl (host : String) :
    bytes (fetchUrl host) = text (servedPrefix ++ [fileName host]) := by
  have hbase : bytes "/static/pprof/" = text servedPrefix ++ [slash] := by decide
  unfold fetchUrl fileName
  rw [String.append_assoc, bytes_append, hbase, text_append, text_singleton, List.append_assoc,
    List.singleton_append]

theorem fileName_inj : fileName host = fileName other ↔ host = other := by
  unfold fileName
  rw [bytes_inj, ← String.toList_inj, String.toList_append, String.toList_append,
    List.append_cancel_right_eq, String.toList_inj]

theorem fileName_proper (host : String) : Proper (fileName host) := by
  have hlength : 6 ≤ (fileName host).length := by
    have hsuffix : (bytes ".pprof").length = 6 := by decide
    unfold fileName
    rw [bytes_append, List.length_append, hsuffix]
    omega
  refine ⟨?_, ?_, ?_⟩ <;> intro h <;> rw [h] at hlength <;> exact absurd hlength (by decide)

theorem code_mem_fileName {c : Char} (hc : Utf8.Ascii c) (hsuffix : c ∉ ".pprof".toList) :
    Utf8.code c ∈ fileName host ↔ c ∈ host.toList := by
  unfold fileName
  rw [code_mem_bytes hc, String.toList_append, List.mem_append, or_iff_left hsuffix]

theorem plain_fileName : Plain (fileName host) ↔ PlainHost host := by
  have hcodes : ∀ b ∈ [9, 10, 13, 35, 37, 47, 63, 92],
      ∃ c ∈ ['/', '\\', '%', '?', '#', '\t', '\n', '\r'],
        Utf8.code c = b ∧ Utf8.Ascii c ∧ c ∉ ".pprof".toList := by decide
  have hchars : ∀ c ∈ ['/', '\\', '%', '?', '#', '\t', '\n', '\r'],
      Utf8.code c ∈ [9, 10, 13, 35, 37, 47, 63, 92] ∧ Utf8.Ascii c ∧ c ∉ ".pprof".toList := by decide
  constructor
  · intro h c hc hmem
    obtain ⟨hcode, hascii, hsuffix⟩ := hchars c hmem
    exact h _ ((code_mem_fileName hascii hsuffix).mpr hc) hcode
  · intro h b hb hmem
    obtain ⟨c, hc, rfl, hascii, hsuffix⟩ := hcodes b hmem
    exact h c ((code_mem_fileName hascii hsuffix).mp hb) hc

theorem slash_mem_fileName : slash ∈ fileName host ↔ '/' ∈ host.toList :=
  code_mem_fileName (c := '/') (by decide) (by decide)

/-! ## What is written -/

theorem static_proper : ∀ name ∈ static, Proper name ∧ slash ∉ name := by
  unfold Proper
  decide

theorem diskFile_eq (made : ∀ dir, dir <+: static → isDir dir = true) (hslash : '/' ∉ host.toList) :
    diskFile isDir host =
      if 0 ∈ bytes (writePath host) then none else some (static ++ [fileName host]) := by
  have hnames : ∀ name ∈ static ++ [fileName host], slash ∉ name := by
    intro name hname
    rcases List.mem_append.mp hname with hstatic | hfile
    · exact (static_proper name hstatic).2
    · rw [List.mem_singleton.mp hfile, slash_mem_fileName]
      exact hslash
  have hroot : enter [] [] = ([] : List Name) := rfl
  have hfound : resolve isDir [] (static ++ [fileName host]) = some ([] ++ static ++ [fileName host]) :=
    resolve_proper (fun name hname => (static_proper name hname).1) made (fileName_proper host)
  unfold diskFile
  rw [bytes_writePath, splitOn_text hnames, resolve_cons (by simp), hroot,
    if_pos (made [] List.nil_prefix), hfound, List.nil_append]

theorem last_name (hslash : '/' ∈ host.toList) :
    ∃ front last : String, '/' ∉ last.toList ∧ last ≠ host ∧
      fileName host = bytes front ++ slash :: fileName last := by
  obtain ⟨back, front, hreverse, hback⟩ :=
    List.eq_append_cons_of_mem (List.mem_reverse.mpr hslash)
  have hhost : host.toList = front.reverse ++ '/' :: back.reverse := by
    rw [← List.reverse_reverse host.toList, hreverse, List.reverse_append, List.reverse_cons,
      List.append_assoc, List.singleton_append]
  refine ⟨String.ofList front.reverse, String.ofList back.reverse, ?_, ?_, ?_⟩
  · rw [String.toList_ofList, List.mem_reverse]
    exact hback
  · rintro rfl
    have hlength := congrArg List.length hhost
    rw [String.toList_ofList] at hlength
    simp at hlength
    omega
  · have hslash' : bytes "/" = [slash] := by decide
    have happend : host = String.ofList front.reverse ++ "/" ++ String.ofList back.reverse := by
      rw [← String.toList_inj, hhost]
      simp
    unfold fileName
    rw [happend, bytes_append, bytes_append, bytes_append, bytes_append, hslash']
    simp

/-- A path in the directory ends in a name that leads to the same file by itself. -/
theorem diskFile_path (made : ∀ dir, dir <+: static → isDir dir = true)
    (hslash : '/' ∈ host.toList) {name : Name} (h : diskFile isDir host = some (static ++ [name])) :
    ∃ other, '/' ∉ other.toList ∧ other ≠ host ∧ diskFile isDir other = diskFile isDir host := by
  obtain ⟨front, last, hlast, hne, hname⟩ := last_name hslash
  have hbytes : bytes (writePath host) = (text static ++ slash :: bytes front) ++ slash :: fileName last := by
    rw [bytes_writePath, text_append, text_singleton, hname, List.append_assoc, List.cons_append]
  have hnul : 0 ∉ bytes (writePath host) := by
    intro hmem
    rw [diskFile, if_pos hmem] at h
    contradiction
  have hnul' : 0 ∉ bytes (writePath last) := by
    rw [hbytes, List.append_assoc] at hnul
    rw [bytes_writePath, text_append, text_singleton]
    exact fun hmem => hnul (((List.sublist_append_right _ _).append_left _).subset hmem)
  have hfile : fileName last = name := by
    rw [diskFile, if_neg hnul, hbytes, List.splitOn_append_cons_self,
      List.splitOn_eq_singleton (mt slash_mem_fileName.mp hlast)] at h
    obtain ⟨dir, hfound⟩ := resolve_concat h
    rw [enter_proper (fileName_proper last)] at hfound
    exact (List.singleton_inj.mp (List.append_inj' hfound rfl).2).symm
  exact ⟨last, hlast, hne, by rw [diskFile_eq made hlast, if_neg hnul', h, hfile]⟩

/-! ## Which hosts are isolated -/

theorem validName_fileName (hnul : 0 ∉ bytes (writePath host)) : validName (fileName host) = true := by
  have hnul' : 0 ∉ fileName host := by
    rw [bytes_writePath, text_append, text_singleton] at hnul
    exact fun hmem => hnul (List.mem_append_right _ (List.mem_cons_of_mem slash hmem))
  have hvalid : (ByteArray.mk (fileName host).toArray).validateUTF8 = true :=
    ByteArray.validateUTF8_eq_true_iff.mpr (host ++ ".pprof").isValidUTF8
  unfold validName
  rw [hvalid, Bool.and_true, Bool.not_eq_true', List.contains_eq_mem]
  exact decide_eq_false hnul'

theorem webFile_plain (hplain : PlainHost host) (hnul : 0 ∉ bytes (writePath host)) :
    webFile host = some (static ++ [fileName host]) := by
  have hpre : ∀ n ∈ servedPrefix, (Proper n ∧ Plain n) ∧ ∀ b ∈ n, pathKeep b = true := by
    unfold Proper Plain
    decide
  unfold webFile
  rw [bytes_fetchUrl]
  exact servedFile_plain (fun n hn => (hpre n hn).1) (fun n hn => (hpre n hn).2)
    (fileName_proper host) (plain_fileName.mpr hplain) (validName_fileName hnul)

theorem plain_of_webFile (hslash : '/' ∉ host.toList)
    (h : webFile host = some (static ++ [fileName host])) : PlainHost host := by
  have hpre : ∀ n ∈ servedPrefix, Percent.percent ∉ n := by decide
  unfold webFile at h
  rw [bytes_fetchUrl] at h
  exact plain_fileName.mp
    (plain_of_servedFile hpre (fileName_proper host).1 (mt slash_mem_fileName.mp hslash) h)

/-- The hosts are isolated just when their names are plain. -/
theorem isolated_iff (w : Written) : Isolated w ↔ ∀ host ∈ w.hosts, PlainHost host := by
  have hnul : ∀ host ∈ w.hosts, 0 ∉ bytes (writePath host) := by
    intro host hhost hmem
    have hcreated := w.created host hhost
    rw [diskFile, if_pos hmem] at hcreated
    contradiction
  constructor
  · intro h host hhost
    obtain ⟨name, hname⟩ := h.confined host hhost
    have hslash : '/' ∉ host.toList := by
      intro hmem
      obtain ⟨other, hother, hne, hsame⟩ := diskFile_path w.made hmem hname
      exact h.distinct host hhost other (.inr hother) hne hsame
    apply plain_of_webFile hslash
    rw [h.reachable host hhost, diskFile_eq w.made hslash, if_neg (hnul host hhost)]
  · intro h
    have hslash : ∀ host ∈ w.hosts, '/' ∉ host.toList := fun host hhost hmem =>
      h host hhost '/' hmem (by decide)
    have hfile : ∀ host ∈ w.hosts, diskFile w.isDir host = some (static ++ [fileName host]) := by
      intro host hhost
      rw [diskFile_eq w.made (hslash host hhost), if_neg (hnul host hhost)]
    refine ⟨fun host hhost => ⟨_, hfile host hhost⟩, ?_, ?_⟩
    · intro host hhost other hother hne hsame
      have hother' : '/' ∉ other.toList := hother.elim (hslash other) id
      rw [hfile host hhost, diskFile_eq w.made hother'] at hsame
      split at hsame
      · contradiction
      · rw [Option.some.injEq, List.append_cancel_left_eq, List.singleton_inj, fileName_inj] at hsame
        exact hne hsame
    · intro host hhost
      rw [hfile host hhost, webFile_plain (h host hhost) (hnul host hhost)]

/-- A host that an adapter calls by a path. -/
def traversal : Written where
  isDir dir := decide (dir <+: static)
  made _ h := decide_eq_true h
  hosts := ["../node"]
  created := by decide

/-- Its profile is written outside the directory. -/
theorem traversal_outside :
    diskFile traversal.isDir "../node" = some [bytes "tmp", bytes "TSymbiote", bytes "node.pprof"] ∧
      ¬ Isolated traversal := by
  have hfile : diskFile traversal.isDir "../node" =
      some [bytes "tmp", bytes "TSymbiote", bytes "node.pprof"] := by decide
  refine ⟨hfile, ?_⟩
  intro h
  obtain ⟨name, hname⟩ := h.confined "../node" (List.mem_singleton_self _)
  rw [hfile, Option.some.injEq] at hname
  have hlength := congrArg List.length hname
  simp [static] at hlength

end TSymbiote.WebUI.Pprof
