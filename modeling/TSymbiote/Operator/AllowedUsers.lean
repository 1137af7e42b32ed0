import TSymbiote.WebUI.Auth

/-! # Allowed users, from the resource to the WebUI

The operator joins the allowed users with commas, the WebUI reads the join as a
CSV record. Here it is determined for which lists the WebUI enforces the list
that was meant.
-/

namespace TSymbiote.Operator

open WebUI

/-- The arguments of the WebUI's container. -/
def webUIArgs (hostname : String) (allowedUsers : List String) : List String :=
  ["webui", "--hostname=" ++ hostname, "--allowed-users=" ++ ",".intercalate allowedUsers]

/-- Exactly the users of the list are let in, or everyone when there is none; and
a list that is not empty does not become one that is. -/
structure Enforced (hostname : String) (users : List String) : Prop where
  admits : ∀ login, Admits (webUIArgs hostname users) login ↔ users = [] ∨ login ∈ users
  closed : users ≠ [] → ∀ allowed, allowedUsers (webUIArgs hostname users) = .ok allowed → allowed ≠ []

/-- No user has a comma, a quote or a line feed in it, the only user is not
empty, and a last user that ends in a carriage return is in the list before that,
with it and without. -/
structure Renderable (users : List String) : Prop where
  nonblank : users ≠ [""]
  clean : ∀ user ∈ users, ∀ c ∈ user.toList, c ≠ ',' ∧ c ≠ '"' ∧ c ≠ '\n'
  ending : ∀ init user, users = init ++ [user ++ "\r"] → user ∈ init ∧ user ++ "\r" ∈ init

theorem clean_iff (s : String) :
    Csv.Clean s.toList ↔ ∀ c ∈ s.toList, c ≠ ',' ∧ c ≠ '"' ∧ c ≠ '\n' := by
  constructor
  · intro h c hc
    refine ⟨?_, ?_, ?_⟩
    · intro heq
      subst heq
      exact h.comma hc
    · intro heq
      subst heq
      exact h.quote hc
    · intro heq
      subst heq
      exact h.newline hc
  · intro h
    exact ⟨fun hm => (h _ hm).1 rfl, fun hm => (h _ hm).2.1 rfl, fun hm => (h _ hm).2.2 rfl⟩

theorem mem_map_toList {users : List String} {user : String} :
    user.toList ∈ users.map String.toList ↔ user ∈ users :=
  List.mem_map_of_injective fun _ _ h => String.toList_injective h

theorem mem_map_ofList {record : List (List Char)} {user : String} :
    user ∈ record.map String.ofList ↔ user.toList ∈ record := by
  rw [List.mem_map]
  constructor
  · intro hmem
    rcases hmem with ⟨s, hs, rfl⟩
    rwa [String.toList_ofList]
  · intro h
    exact ⟨user.toList, h, String.ofList_toList⟩

theorem map_toList_concat {users : List String} {init : List (List Char)} {t : List Char}
    (h : users.map String.toList = init ++ [t ++ ['\r']]) :
    ∃ init' user, users = init' ++ [user ++ "\r"] ∧ init'.map String.toList = init ∧
      user.toList = t := by
  obtain ⟨init', rest, rfl, hinit, hrest⟩ := List.map_eq_append_iff.mp h
  obtain ⟨last, hlast, hchars⟩ := List.map_eq_singleton_iff.mp hrest
  refine ⟨init', String.ofList t, ?_, hinit, String.toList_ofList⟩
  have hstring : last = String.ofList t ++ "\r" := String.toList_injective (by
    rw [hchars, String.toList_append, String.toList_ofList]
    rfl)
  rw [hlast, hstring]

theorem renderable_iff (users : List String) :
    Renderable users ↔ Csv.Joinable (users.map String.toList) := by
  constructor
  · intro h
    constructor
    · intro hblank
      obtain ⟨user, rfl, huser⟩ := List.map_eq_singleton_iff.mp hblank
      exact h.nonblank (by rw [String.toList_eq_nil_iff.mp huser])
    · intro s hs
      obtain ⟨user, huser, rfl⟩ := List.mem_map.mp hs
      exact (clean_iff user).mpr (h.clean user huser)
    · intro init t hjoin
      obtain ⟨init', user, husers, rfl, rfl⟩ := map_toList_concat hjoin
      obtain ⟨hwithout, hwith⟩ := h.ending init' user husers
      exact ⟨mem_map_toList.mpr hwithout, by simpa using mem_map_toList.mpr hwith⟩
  · intro h
    constructor
    · intro heq
      subst heq
      exact h.nonblank rfl
    · intro user huser
      exact (clean_iff user).mp (h.clean _ (mem_map_toList.mpr huser))
    · intro init user heq
      subst heq
      obtain ⟨hwithout, hwith⟩ := h.ending (init.map String.toList) user.toList (by simp)
      have hreturn : user.toList ++ ['\r'] = (user ++ "\r").toList := by
        rw [String.toList_append]
        rfl
      rw [hreturn] at hwith
      exact ⟨mem_map_toList.mp hwithout, mem_map_toList.mp hwith⟩

theorem flagValue_hostname (hostname : String) :
    flagValue "allowed-users" ("--hostname=" ++ hostname) = none := by
  unfold flagValue
  rw [if_neg]
  intro hprefix
  rcases hprefix with ⟨rest, hrest⟩
  rw [String.toList_append (s := "--hostname=")] at hrest
  have hthird := congrArg (fun l => l[2]?) hrest
  rw [List.getElem?_append_left (by decide), List.getElem?_append_left (by decide)] at hthird
  exact absurd hthird (by decide)

/-- The WebUI gets its flag as the operator wrote it. -/
theorem allowedUsers_webUIArgs (hostname : String) (users : List String) :
    allowedUsers (webUIArgs hostname users) = getStringSlice (",".intercalate users) := by
  have hcommand : flagValue "allowed-users" "webui" = none := by decide
  have hvalue := flagValue_self "allowed-users" (",".intercalate users)
  simp only [allowedUsers, webUIArgs, List.findSome?_cons, hcommand, flagValue_hostname]
  have hname : "--" ++ "allowed-users" ++ "=" = "--allowed-users=" := by decide
  rw [hname] at hvalue
  simp only [hvalue]

/-- Of a list that is neither empty nor the one blank user, the join is read. -/
theorem getStringSlice_join {users : List String} (hne : users ≠ []) (hblank : users ≠ [""]) :
    getStringSlice (",".intercalate users) =
      (Csv.read ([','].intercalate (users.map String.toList))).map
        fun record => record.map String.ofList := by
  have htext : (",".intercalate users).toList = [','].intercalate (users.map String.toList) :=
    String.toList_intercalate
  have hvalue : ",".intercalate users ≠ "" := by
    intro hempty
    rw [hempty] at htext
    have hnil : users.map String.toList ≠ [] := by simpa using hne
    have hone := (Csv.join_eq_nil hnil).mp htext.symm
    obtain ⟨user, rfl, huser⟩ := List.map_eq_singleton_iff.mp hone
    exact hblank (by rw [String.toList_eq_nil_iff.mp huser])
  unfold getStringSlice
  rw [if_neg hvalue, htext]

theorem enforced_iff_readsBack (hostname : String) {users : List String} (hne : users ≠ [])
    (hblank : users ≠ [""]) :
    Enforced hostname users ↔ Csv.ReadsBack (users.map String.toList) := by
  have hparse := allowedUsers_webUIArgs hostname users
  rw [getStringSlice_join hne hblank] at hparse
  constructor
  · intro h
    cases hread : Csv.read ([','].intercalate (users.map String.toList)) with
    | error err =>
        rw [hread] at hparse
        obtain ⟨user, huser⟩ := List.exists_mem_of_ne_nil users hne
        obtain ⟨allowed, hallowed, _⟩ := (h.admits user).mpr (.inr huser)
        rw [hparse] at hallowed
        cases hallowed
    | ok record =>
        rw [hread] at hparse
        refine ⟨record, hread, fun s => ?_⟩
        have hadmits := h.admits (String.ofList s)
        have hclosed := h.closed hne _ hparse
        simp only [Admits, hparse, Except.map, Except.ok.injEq, exists_eq_left', uiAuth_next_iff]
          at hadmits hclosed
        simp only [hclosed, hne, false_or] at hadmits
        rw [mem_map_ofList, ← mem_map_toList, String.toList_ofList] at hadmits
        exact hadmits
  · intro hreads
    rcases hreads with ⟨record, hread, hsame⟩
    rw [hread] at hparse
    have hmem : ∀ login, login ∈ record.map String.ofList ↔ login ∈ users := by
      intro login
      rw [mem_map_ofList, hsame, mem_map_toList]
    have hnil : record.map String.ofList ≠ [] := by
      obtain ⟨user, huser⟩ := List.exists_mem_of_ne_nil users hne
      exact List.ne_nil_of_mem ((hmem user).mpr huser)
    refine ⟨fun login => ?_, fun _ allowed hallowed => ?_⟩
    · simp only [Admits, hparse, Except.map, Except.ok.injEq, exists_eq_left', uiAuth_next_iff,
        hnil, hne, false_or]
      exact hmem login
    · rw [hparse] at hallowed
      cases hallowed
      exact hnil

theorem allowedUsers_blank (hostname : String) {users : List String}
    (h : ",".intercalate users = "") : allowedUsers (webUIArgs hostname users) = .ok [] := by
  rw [allowedUsers_webUIArgs, h]
  rfl

/-- The WebUI enforces the users of the resource exactly when they are renderable. -/
theorem enforced_iff (hostname : String) (users : List String) :
    Enforced hostname users ↔ Renderable users := by
  by_cases hne : users = []
  · subst hne
    have hparse : allowedUsers (webUIArgs hostname []) = .ok [] := allowedUsers_blank hostname rfl
    refine ⟨fun _ => ⟨by simp, by simp, by simp⟩, fun _ => ⟨fun login => ?_, by simp⟩⟩
    simp [Admits, hparse, uiAuth_next_iff]
  · by_cases hblank : users = [""]
    · subst hblank
      have hparse : allowedUsers (webUIArgs hostname [""]) = .ok [] :=
        allowedUsers_blank hostname rfl
      exact ⟨fun h => absurd rfl (h.closed hne [] hparse), fun h => absurd rfl h.nonblank⟩
    · have hnil : users.map String.toList ≠ [] := by simpa using hne
      rw [enforced_iff_readsBack hostname hne hblank, Csv.readsBack_iff hnil, renderable_iff]

/-- A list with one blank user lets everyone in. -/
theorem blank_user_opens : ¬ ∀ hostname users, Enforced hostname users := by
  intro h
  have hparse : allowedUsers (webUIArgs "tsymbiote" [""]) = .ok [] := by decide +kernel
  exact (h "tsymbiote" [""]).closed (by simp) [] hparse rfl

end TSymbiote.Operator
