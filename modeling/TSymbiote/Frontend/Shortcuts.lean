import TSymbiote.Frontend.CommandOutputs
import TSymbiote.Lib.Cycle
import TSymbiote.Lib.OrderedSet

/-! # The output panel and the keyboard

The panel with the command outputs is dragged, minimized and restored, and has a
tab for every host of the output data. Keys do the same as the buttons, and walk
around the tabs and the layouts; they are ignored while something is typed or a
modal is open.
-/

namespace TSymbiote.Frontend.Shortcuts

open Transition

open CommandOutputs (Command)

def minHeight : Int := 180

def minViewportMargin : Int := 100

def defaultLayout : String := "treeTd3d"

/-- The values of `LAYOUT_OPTIONS`. -/
def layoutOptions : List String :=
  ["forceDirected2d", "forceDirected3d", "circular2d", "concentric2d", "concentric3d", "treeTd2d",
    "treeTd3d", "treeLr2d", "treeLr3d", "radialOut2d", "radialOut3d", "hierarchicalTd",
    "hierarchicalLr", "nooverlap", "forceatlas2"]

/-- `outputHosts` are the keys of the output data, in their order. `innerHeight` is
the window's. -/
structure Page where
  innerHeight : Int
  statusPanelHeight : Int := minHeight
  previousPanelHeight : Int
  isDragging : Bool := false
  statusPanelOpen : Bool := true
  outputHosts : OrderedSet String := .empty
  selectedOutputHost : Option String := none
  layoutType : String := defaultLayout
  contextMenu : Bool := false
  showQueryDNSModal : Bool := false
  dnsName : String := ""
  dnsQueryType : String := "A"
  showPprofModal : Bool := false
  pprofType : String := "profile"
  pprofDuration : String := "30"

/-- Half of the window, rounded down. -/
def expandedHeight (innerHeight : Int) : Int := innerHeight / 2

def loaded (innerHeight : Int) : Page where
  innerHeight := innerHeight
  previousPanelHeight := expandedHeight innerHeight

namespace Page

/-! ## The panel -/

def isMinimized (p : Page) : Bool := p.statusPanelHeight ≤ minHeight

def toggleMinimizePanel (p : Page) : Page :=
  if p.isMinimized = true then
    { p with
      statusPanelHeight :=
        if minHeight < p.previousPanelHeight then p.previousPanelHeight
        else expandedHeight p.innerHeight }
  else { p with previousPanelHeight := p.statusPanelHeight, statusPanelHeight := minHeight }

def handleResizeMove (p : Page) (clientY : Int) : Page :=
  let newHeight := p.innerHeight - clientY
  if minViewportMargin ≤ newHeight ∧ newHeight ≤ p.innerHeight - minViewportMargin then
    { p with statusPanelHeight := newHeight }
  else p

/-! ## The modals -/

def closeQueryDNSModal (p : Page) : Page :=
  { p with showQueryDNSModal := false, dnsName := "", dnsQueryType := "A" }

def closePprofModal (p : Page) : Page :=
  { p with showPprofModal := false, pprofType := "profile", pprofDuration := "30" }

def modalOpen (p : Page) : Bool := p.showQueryDNSModal || p.showPprofModal

/-! ## The keys -/

def escapeQueryDNS (p : Page) : Page :=
  if p.showQueryDNSModal = true then p.closeQueryDNSModal else p

def escapePprof (p : Page) : Page := if p.showPprofModal = true then p.closePprofModal else p

/-- The context menu is closed, and the modals that are shown. -/
def handleEscapeKey (p : Page) : Page :=
  escapePprof (escapeQueryDNS { p with contextMenu := false })

/-- The code of the panel's button again. -/
def handleSpacebarKey (p : Page) : Page := p.toggleMinimizePanel

def handleTabKey (p : Page) (shiftKey : Bool) : Page :=
  match p.selectedOutputHost with
  | none => p
  | some selected =>
      if 1 < p.outputHosts.size ∧ selected ≠ "" then
        { p with selectedOutputHost := Cycle.move p.outputHosts.toList shiftKey selected }
      else p

def handleBacktickKey (p : Page) (shiftKey : Bool) : Page :=
  match Cycle.move layoutOptions shiftKey p.layoutType with
  | none => p
  | some layout => { p with layoutType := layout }

/-- What it does to the selections is left to the page of the selections. -/
def handleResetKey (p : Page) : Page := { p with layoutType := defaultLayout }

end Page

/-- `isInputField` is whether the target of the event is one. -/
structure KeyboardEvent where
  key : String
  shiftKey : Bool
  isInputField : Bool
  deriving DecidableEq, Repr

/-- The keys of the camera change nothing here. -/
def Page.handleKeyDown (p : Page) (e : KeyboardEvent) : Page :=
  if e.key = "Escape" then p.handleEscapeKey
  else if e.isInputField || p.modalOpen then p
  else if e.key = " " then p.handleSpacebarKey
  else if e.key = "Tab" then
    if p.statusPanelOpen = true then p.handleTabKey e.shiftKey else p
  else if e.key = "`" then p.handleBacktickKey e.shiftKey
  else if e.key = "r" ∨ e.key = "R" then p.handleResetKey
  else p

/-! ## The page -/

/-- What happens on the page: keys, the mouse, and responses to commands. -/
inductive Event where
  | keydown (e : KeyboardEvent)
  | toggleMinimize
  | resizeStart
  | mousemove (clientY : Int)
  | mouseup
  | resizeWindow (innerHeight : Int)
  | selectTab (hostId : String)
  | selectLayout (layout : String)
  | reset
  | openContextMenu
  | openQueryDNS
  | openPprof
  | closeQueryDNS
  | closePprof
  | typeDNS (dnsName dnsQueryType : String)
  | typePprof (pprofType pprofDuration : String)
  /-- The output data of a command's response. -/
  | results (command : Command) (hosts : OrderedSet String)
  /-- A stream; the output data has a key for each of its hosts but `__proto__`. -/
  | stream (firstHost : String) (hosts : OrderedSet String)

/-- A response closes the modal of its command. The form of the profiles stays. -/
def Page.closeModal (p : Page) : Command → Page
  | .queryDNS => p.closeQueryDNSModal
  | .pprof => { p with showPprofModal := false }
  | _ => p

def Page.showResults (p : Page) (command : Command) (hosts : OrderedSet String) : Page :=
  let p := { p with outputHosts := hosts, statusPanelOpen := true }
  let p := match hosts.toList.head? with
    | none => p
    | some firstHost => if firstHost ≠ "" then { p with selectedOutputHost := some firstHost } else p
  p.closeModal command

def step (p : Page) : Event → Option Page
  | .keydown e => some (p.handleKeyDown e)
  | .toggleMinimize => some p.toggleMinimizePanel
  | .resizeStart => some { p with isDragging := true }
  | .mousemove clientY => some (if p.isDragging = true then p.handleResizeMove clientY else p)
  | .mouseup => some { p with isDragging := false }
  | .resizeWindow innerHeight => some { p with innerHeight }
  | .selectTab hostId =>
      if hostId ∈ p.outputHosts then some { p with selectedOutputHost := some hostId } else none
  | .selectLayout layout =>
      if layout ∈ layoutOptions then some { p with layoutType := layout } else none
  | .reset => some p.handleResetKey
  | .openContextMenu => some { p with contextMenu := true }
  | .openQueryDNS => some { p with showQueryDNSModal := true }
  | .openPprof => some { p with showPprofModal := true }
  | .closeQueryDNS => some p.closeQueryDNSModal
  | .closePprof => some p.closePprofModal
  | .typeDNS dnsName dnsQueryType =>
      if p.showQueryDNSModal = true then some { p with dnsName, dnsQueryType } else none
  | .typePprof pprofType pprofDuration =>
      if p.showPprofModal = true then some { p with pprofType, pprofDuration } else none
  | .results command hosts => some (p.showResults command hosts)
  | .stream firstHost hosts =>
      if (firstHost ∈ hosts ∨ firstHost = "__proto__") ∧ "__proto__" ∉ hosts then
        some { p with
          outputHosts := hosts, selectedOutputHost := some firstHost, statusPanelOpen := true }
      else none

/-! ## What a key can change -/

section Keys

variable (p : Page)

theorem toggle_eq : ∃ height previous,
    p.toggleMinimizePanel =
      { p with statusPanelHeight := height, previousPanelHeight := previous } := by
  unfold Page.toggleMinimizePanel
  split
  · exact ⟨_, p.previousPanelHeight, rfl⟩
  · exact ⟨_, _, rfl⟩

theorem resizeMove_eq (clientY : Int) :
    ∃ height, p.handleResizeMove clientY = { p with statusPanelHeight := height } := by
  unfold Page.handleResizeMove
  dsimp only
  split
  · exact ⟨_, rfl⟩
  · exact ⟨p.statusPanelHeight, rfl⟩

theorem tab_some {selected : String} (hselected : p.selectedOutputHost = some selected)
    (hsize : 1 < p.outputHosts.size) (hne : selected ≠ "") (shiftKey : Bool) :
    p.handleTabKey shiftKey =
      { p with selectedOutputHost := Cycle.move p.outputHosts.toList shiftKey selected } := by
  unfold Page.handleTabKey
  rw [hselected]
  exact if_pos ⟨hsize, hne⟩

/-- The key goes to a tab, or leaves the page as it is. -/
theorem tab_eq (shiftKey : Bool) : p.handleTabKey shiftKey = p ∨
    ∃ selected, selected ∈ p.outputHosts ∧
      p.handleTabKey shiftKey = { p with selectedOutputHost := some selected } := by
  cases hselected : p.selectedOutputHost with
  | none =>
      left
      unfold Page.handleTabKey
      rw [hselected]
  | some selected =>
      by_cases hwalk : 1 < p.outputHosts.size ∧ selected ≠ ""
      · right
        obtain ⟨hsize, hne⟩ := hwalk
        have hlist : p.outputHosts.toList ≠ [] := by
          intro hnil
          unfold OrderedSet.size at hsize
          rw [hnil] at hsize
          simp at hsize
        obtain ⟨next, hmem, hmove⟩ := Cycle.exists_move hlist shiftKey selected
        refine ⟨next, hmem, ?_⟩
        rw [tab_some p hselected hsize hne, hmove]
      · left
        unfold Page.handleTabKey
        rw [hselected]
        exact if_neg hwalk

theorem backtick_eq (shiftKey : Bool) : ∃ layout ∈ layoutOptions,
    p.handleBacktickKey shiftKey = { p with layoutType := layout } := by
  obtain ⟨layout, hmem, hmove⟩ :=
    Cycle.exists_move (l := layoutOptions) (by decide) shiftKey p.layoutType
  refine ⟨layout, hmem, ?_⟩
  unfold Page.handleBacktickKey
  rw [hmove]

/-- Both modals are closed then, and a form that was shown is reset. -/
theorem escape_eq : ∃ dnsName dnsQueryType pprofType pprofDuration,
    p.handleEscapeKey = { p with
      contextMenu := false, showQueryDNSModal := false, dnsName, dnsQueryType
      showPprofModal := false, pprofType, pprofDuration } ∧
    (dnsName, dnsQueryType) =
      if p.showQueryDNSModal = true then ("", "A") else (p.dnsName, p.dnsQueryType) := by
  unfold Page.handleEscapeKey Page.escapeQueryDNS Page.escapePprof
  cases hdns : p.showQueryDNSModal with
  | false =>
      cases hpprof : p.showPprofModal with
      | false => exact ⟨_, _, p.pprofType, p.pprofDuration, by simp, rfl⟩
      | true => exact ⟨_, _, "profile", "30", by simp [Page.closePprofModal], rfl⟩
  | true =>
      cases hpprof : p.showPprofModal with
      | false =>
          exact ⟨_, _, p.pprofType, p.pprofDuration, by simp [Page.closeQueryDNSModal], rfl⟩
      | true =>
          exact ⟨_, _, "profile", "30",
            by simp [Page.closeQueryDNSModal, Page.closePprofModal], rfl⟩

end Keys

/-- What a key does, if it is not ignored. -/
inductive Key (p : Page) (e : KeyboardEvent) : Page → Prop where
  | ignored (h : e.key ≠ "Escape" → e.isInputField = true ∨ p.modalOpen = true ∨
      e.key ≠ " " ∧ (e.key = "Tab" → p.statusPanelOpen = false) ∧ e.key ≠ "`") : Key p e p
  | escape (h : e.key = "Escape") : Key p e p.handleEscapeKey
  | spacebar (h : e.key = " ") (hinput : e.isInputField = false) (hmodal : p.modalOpen = false) :
      Key p e p.handleSpacebarKey
  | tab (h : e.key = "Tab") (hinput : e.isInputField = false) (hmodal : p.modalOpen = false) :
      Key p e (p.handleTabKey e.shiftKey)
  | backtick (h : e.key = "`") (hinput : e.isInputField = false) (hmodal : p.modalOpen = false) :
      Key p e (p.handleBacktickKey e.shiftKey)
  | reset (h : e.key = "r" ∨ e.key = "R") : Key p e p.handleResetKey

theorem keydown_key (p : Page) (e : KeyboardEvent) : Key p e (p.handleKeyDown e) := by
  unfold Page.handleKeyDown
  split
  · next h => exact .escape h
  · next hescape =>
    split
    · next h =>
        refine .ignored fun _ => ?_
        rcases Bool.or_eq_true_iff.mp h with hinput | hmodal
        · exact .inl hinput
        · exact .inr (.inl hmodal)
    · next h =>
      obtain ⟨hinput, hmodal⟩ := Bool.or_eq_false_iff.mp (Bool.not_eq_true _ ▸ h)
      split
      · next h => exact .spacebar h hinput hmodal
      · next hspace =>
        split
        · next h =>
            split
            · exact .tab h hinput hmodal
            · next hclosed =>
                refine .ignored fun _ => .inr (.inr ⟨hspace, fun _ => ?_, ?_⟩)
                · exact Bool.not_eq_true _ ▸ hclosed
                · rw [h]
                  decide
        · next htab =>
          split
          · next h => exact .backtick h hinput hmodal
          · next hbacktick =>
            split
            · next h => exact .reset h
            · exact .ignored fun _ => .inr (.inr ⟨hspace, fun h => absurd h htab, hbacktick⟩)

/-! ## The page in every state -/

/-- The layout is one that can be chosen, one of the tabs is selected when there are
any with proper names, or a host that has none, and the form of a DNS query that is
not shown is empty. -/
structure Sound (p : Page) : Prop where
  layout : p.layoutType ∈ layoutOptions
  tab : "" ∉ p.outputHosts → p.outputHosts.toList ≠ [] →
    ∃ selected, p.selectedOutputHost = some selected ∧
      (selected ∈ p.outputHosts ∨ selected = "__proto__")
  form : p.showQueryDNSModal = false → p.dnsName = "" ∧ p.dnsQueryType = "A"
  opened : p.statusPanelOpen = true

section Sound

variable {p t : Page}

theorem defaultLayout_mem : defaultLayout ∈ layoutOptions := by decide

theorem loaded_sound (innerHeight : Int) : Sound (loaded innerHeight) where
  layout := defaultLayout_mem
  tab _ hne := absurd rfl hne
  form _ := ⟨rfl, rfl⟩
  opened := rfl

theorem toggle_sound (hp : Sound p) : Sound p.toggleMinimizePanel := by
  obtain ⟨_, _, heq⟩ := toggle_eq p
  rw [heq]
  exact ⟨hp.layout, hp.tab, hp.form, hp.opened⟩

theorem keydown_sound (hp : Sound p) (e : KeyboardEvent) (h : Key p e t) : Sound t := by
  cases h with
  | ignored => exact hp
  | escape =>
      obtain ⟨_, _, _, _, heq, hform⟩ := escape_eq p
      rw [heq]
      refine ⟨hp.layout, hp.tab, fun _ => ?_, hp.opened⟩
      split at hform
      · cases hform
        exact ⟨rfl, rfl⟩
      · next hshown =>
          cases hform
          exact hp.form (Bool.not_eq_true _ ▸ hshown)
  | spacebar => exact toggle_sound hp
  | tab =>
      rcases tab_eq p e.shiftKey with heq | ⟨selected, hmem, heq⟩
      · rw [heq]
        exact hp
      · rw [heq]
        exact ⟨hp.layout, fun _ _ => ⟨selected, rfl, .inl hmem⟩, hp.form, hp.opened⟩
  | backtick =>
      obtain ⟨layout, hmem, heq⟩ := backtick_eq p e.shiftKey
      rw [heq]
      exact ⟨hmem, hp.tab, hp.form, hp.opened⟩
  | reset => exact ⟨defaultLayout_mem, hp.tab, hp.form, hp.opened⟩

theorem showResults_sound (hp : Sound p) (command : Command) (hosts : OrderedSet String) :
    Sound (p.showResults command hosts) := by
  have hclose : ∀ {q : Page}, Sound q → Sound (q.closeModal command) := by
    intro q hq
    unfold Page.closeModal
    split
    · exact ⟨hq.layout, hq.tab, fun _ => ⟨rfl, rfl⟩, hq.opened⟩
    · exact ⟨hq.layout, hq.tab, hq.form, hq.opened⟩
    · exact hq
  refine hclose ?_
  cases hhead : hosts.toList.head? with
  | none => exact ⟨hp.layout, fun _ hne => absurd (List.head?_eq_none_iff.mp hhead) hne, hp.form, rfl⟩
  | some firstHost =>
      have hmem : firstHost ∈ hosts := List.mem_of_head? hhead
      by_cases hempty : firstHost = ""
      · subst hempty
        exact ⟨hp.layout, fun hnot => absurd hmem hnot, hp.form, rfl⟩
      · dsimp only
        rw [if_pos hempty]
        exact ⟨hp.layout, fun _ _ => ⟨firstHost, rfl, .inl hmem⟩, hp.form, rfl⟩

theorem step_sound {e : Event} (hp : Sound p) (h : step p e = some t) : Sound t := by
  cases e with
  | keydown e =>
      cases h
      exact keydown_sound hp e (keydown_key p e)
  | toggleMinimize =>
      cases h
      exact toggle_sound hp
  | mousemove clientY =>
      cases h
      split
      · obtain ⟨_, heq⟩ := resizeMove_eq p clientY
        rw [heq]
        exact ⟨hp.layout, hp.tab, hp.form, hp.opened⟩
      · exact hp
  | selectTab hostId =>
      obtain ⟨hmem, ⟨⟩⟩ := Option.ite_none_right_eq_some.mp h
      exact ⟨hp.layout, fun _ _ => ⟨hostId, rfl, .inl hmem⟩, hp.form, hp.opened⟩
  | selectLayout layout =>
      obtain ⟨hmem, ⟨⟩⟩ := Option.ite_none_right_eq_some.mp h
      exact ⟨hmem, hp.tab, hp.form, hp.opened⟩
  | reset =>
      cases h
      exact ⟨defaultLayout_mem, hp.tab, hp.form, hp.opened⟩
  | openQueryDNS =>
      cases h
      exact ⟨hp.layout, hp.tab, nofun, hp.opened⟩
  | closeQueryDNS =>
      cases h
      exact ⟨hp.layout, hp.tab, fun _ => ⟨rfl, rfl⟩, hp.opened⟩
  | typeDNS dnsName dnsQueryType =>
      obtain ⟨hshown, ⟨⟩⟩ := Option.ite_none_right_eq_some.mp h
      refine ⟨hp.layout, hp.tab, fun hnot => ?_, hp.opened⟩
      exact absurd (hnot.symm.trans hshown) (by decide)
  | typePprof pprofType pprofDuration =>
      obtain ⟨_, ⟨⟩⟩ := Option.ite_none_right_eq_some.mp h
      exact ⟨hp.layout, hp.tab, hp.form, hp.opened⟩
  | results command hosts =>
      cases h
      exact showResults_sound hp command hosts
  | stream firstHost hosts =>
      obtain ⟨⟨hfirst, _⟩, ⟨⟩⟩ := Option.ite_none_right_eq_some.mp h
      exact ⟨hp.layout, fun _ _ => ⟨firstHost, rfl, hfirst⟩, hp.form, rfl⟩
  | resizeStart | mouseup | resizeWindow | openContextMenu | openPprof | closePprof =>
      cases h
      exact ⟨hp.layout, hp.tab, hp.form, hp.opened⟩

theorem reaches_sound {innerHeight : Int} (h : Reaches step (loaded innerHeight) p) : Sound p :=
  Reaches.invariant (fun hs hl => step_sound hs hl) h (loaded_sound innerHeight)

/-- Whatever is typed, clicked and answered, in any order. -/
theorem page_sound (innerHeight : Int) (es : List Event) :
    Throughout step Sound (loaded innerHeight) es :=
  Throughout.of_invariant id step_sound (loaded_sound innerHeight) es

end Sound

/-! ## Around the tabs and the layouts -/

/-- Events that leave the output data, the tabs, the layouts and the modals to the
keys. -/
def Event.quiet : Event → Bool
  | .selectTab _ | .selectLayout _ | .reset | .openQueryDNS | .openPprof | .results _ _
  | .stream _ _ => false
  | .keydown e => e.key ≠ "r" ∧ e.key ≠ "R"
  | _ => true

/-- Whether the event is the key outside of a field, and with the shift key. -/
def Event.press (key : String) : Event → Option Bool
  | .keydown e => if e.key = key ∧ e.isInputField = false then some e.shiftKey else none
  | _ => none

/-- A page on which the keys walk around these tabs. -/
structure Walking (hosts : OrderedSet String) (p : Page) : Prop where
  idle : p.modalOpen = false
  opened : p.statusPanelOpen = true
  hosts : p.outputHosts = hosts
  proper : p.selectedOutputHost ≠ some ""

section Walk

variable {hosts : OrderedSet String} {p t : Page}

theorem press_of_ne {key : String} {e : KeyboardEvent} (h : e.key ≠ key) :
    (Event.keydown e).press key = none := if_neg fun hand => h hand.1

theorem press_ignored {key : String} {e : KeyboardEvent} (hp : Walking hosts p)
    (hescape : key ≠ "Escape") (hkey : key = "Tab" ∨ key = "`")
    (h : e.key ≠ "Escape" → e.isInputField = true ∨ p.modalOpen = true ∨
      e.key ≠ " " ∧ (e.key = "Tab" → p.statusPanelOpen = false) ∧ e.key ≠ "`") :
    (Event.keydown e).press key = none := by
  refine if_neg ?_
  rintro ⟨hsame, hinput⟩
  rcases h (hsame ▸ hescape) with hfield | hmodal | ⟨_, htab, hbacktick⟩
  · rw [hinput] at hfield
    cases hfield
  · rw [hp.idle] at hmodal
    cases hmodal
  · rcases hkey with rfl | rfl
    · rw [hp.opened] at htab
      cases htab hsame
    · exact hbacktick hsame

/-- The effect of one event: a press of a key goes to the neighbour, anything else
stays. -/
structure Moved (p : Page) (e : Event) (t : Page) : Prop where
  tab : ∀ a, p.selectedOutputHost = some a →
    t.selectedOutputHost =
      (e.press "Tab").elim (some a) fun back => Cycle.move p.outputHosts.toList back a
  layout : some t.layoutType =
    (e.press "`").elim (some p.layoutType) fun back => Cycle.move layoutOptions back p.layoutType

theorem moved_still {e : Event} (htab : e.press "Tab" = none) (hlayout : e.press "`" = none)
    (hselected : t.selectedOutputHost = p.selectedOutputHost) (hsame : t.layoutType = p.layoutType) :
    Moved p e t := by
  constructor
  · intro a ha
    rw [htab, hselected, ha]
    rfl
  · rw [hlayout, hsame]
    rfl

theorem keydown_moved (hp : Walking hosts p) (hsize : 1 < hosts.size) (hnames : "" ∉ hosts)
    {e : KeyboardEvent} (hreset : e.key ≠ "r" ∧ e.key ≠ "R") (h : Key p e t) :
    Walking hosts t ∧ Moved p (.keydown e) t := by
  have hshowing : ∀ {key : String}, e.key = key → key ≠ "Tab" → (Event.keydown e).press "Tab" = none :=
    fun hkey hne => press_of_ne (hkey ▸ hne)
  have hlaying : ∀ {key : String}, e.key = key → key ≠ "`" → (Event.keydown e).press "`" = none :=
    fun hkey hne => press_of_ne (hkey ▸ hne)
  cases h with
  | ignored h =>
      exact ⟨hp, moved_still (press_ignored hp (by decide) (.inl rfl) h)
        (press_ignored hp (by decide) (.inr rfl) h) rfl rfl⟩
  | escape hkey =>
      obtain ⟨_, _, _, _, heq, _⟩ := escape_eq p
      rw [heq]
      exact ⟨⟨rfl, hp.opened, hp.hosts, hp.proper⟩,
        moved_still (hshowing hkey (by decide)) (hlaying hkey (by decide)) rfl rfl⟩
  | spacebar hkey =>
      obtain ⟨_, _, heq⟩ := toggle_eq p
      unfold Page.handleSpacebarKey
      rw [heq]
      exact ⟨⟨hp.idle, hp.opened, hp.hosts, hp.proper⟩,
        moved_still (hshowing hkey (by decide)) (hlaying hkey (by decide)) rfl rfl⟩
  | tab hkey hinput =>
      have hpress : (Event.keydown e).press "Tab" = some e.shiftKey := if_pos ⟨hkey, hinput⟩
      constructor
      · rcases tab_eq p e.shiftKey with heq | ⟨selected, hmem, heq⟩
        · rw [heq]
          exact hp
        · rw [heq]
          refine ⟨hp.idle, hp.opened, hp.hosts, ?_⟩
          rintro ⟨⟩
          exact hnames (hp.hosts ▸ hmem)
      · constructor
        · intro a ha
          have hne : a ≠ "" := fun h => hp.proper (h ▸ ha)
          rw [tab_some p ha (hp.hosts.symm ▸ hsize) hne, hpress]
          rfl
        · rw [hlaying hkey (by decide)]
          rcases tab_eq p e.shiftKey with heq | ⟨selected, hmem, heq⟩
          · rw [heq]
            rfl
          · rw [heq]
            rfl
  | backtick hkey hinput =>
      have hpress : (Event.keydown e).press "`" = some e.shiftKey := if_pos ⟨hkey, hinput⟩
      obtain ⟨layout, hmem, hmove⟩ :=
        Cycle.exists_move (l := layoutOptions) (by decide) e.shiftKey p.layoutType
      have heq : p.handleBacktickKey e.shiftKey = { p with layoutType := layout } := by
        unfold Page.handleBacktickKey
        rw [hmove]
      rw [heq]
      refine ⟨⟨hp.idle, hp.opened, hp.hosts, hp.proper⟩, ?_, ?_⟩
      · intro a ha
        rw [hshowing hkey (by decide)]
        exact ha
      · rw [hpress, Option.elim_some, hmove]
  | reset hkey => exact absurd hkey (not_or.mpr hreset)

theorem step_moved (hp : Walking hosts p) (hsize : 1 < hosts.size) (hnames : "" ∉ hosts) {e : Event}
    (hquiet : e.quiet = true) (h : step p e = some t) : Walking hosts t ∧ Moved p e t := by
  have hsame : ∀ {q : Page}, Walking hosts q → e.press "Tab" = none → e.press "`" = none →
      q.selectedOutputHost = p.selectedOutputHost → q.layoutType = p.layoutType →
        Walking hosts q ∧ Moved p e q :=
    fun hq htab hlayout hselected hlayouts => ⟨hq, moved_still htab hlayout hselected hlayouts⟩
  cases e with
  | keydown e =>
      cases h
      exact keydown_moved hp hsize hnames (of_decide_eq_true hquiet) (keydown_key p e)
  | toggleMinimize =>
      cases h
      obtain ⟨_, _, heq⟩ := toggle_eq p
      rw [heq]
      exact hsame ⟨hp.idle, hp.opened, hp.hosts, hp.proper⟩ rfl rfl rfl rfl
  | mousemove clientY =>
      cases h
      split
      · obtain ⟨_, heq⟩ := resizeMove_eq p clientY
        rw [heq]
        exact hsame ⟨hp.idle, hp.opened, hp.hosts, hp.proper⟩ rfl rfl rfl rfl
      · exact hsame hp rfl rfl rfl rfl
  | closeQueryDNS =>
      cases h
      exact hsame ⟨(Bool.or_eq_false_iff.mp hp.idle).2, hp.opened, hp.hosts, hp.proper⟩ rfl rfl rfl rfl
  | closePprof =>
      cases h
      exact hsame ⟨Bool.or_eq_false_iff.mpr ⟨(Bool.or_eq_false_iff.mp hp.idle).1, rfl⟩, hp.opened,
        hp.hosts, hp.proper⟩ rfl rfl rfl rfl
  | typeDNS dnsName dnsQueryType =>
      obtain ⟨_, ⟨⟩⟩ := Option.ite_none_right_eq_some.mp h
      exact hsame ⟨hp.idle, hp.opened, hp.hosts, hp.proper⟩ rfl rfl rfl rfl
  | typePprof pprofType pprofDuration =>
      obtain ⟨_, ⟨⟩⟩ := Option.ite_none_right_eq_some.mp h
      exact hsame ⟨hp.idle, hp.opened, hp.hosts, hp.proper⟩ rfl rfl rfl rfl
  | resizeStart | mouseup | resizeWindow | openContextMenu =>
      cases h
      exact hsame ⟨hp.idle, hp.opened, hp.hosts, hp.proper⟩ rfl rfl rfl rfl
  | selectTab | selectLayout | reset | openQueryDNS | openPprof | results | stream =>
      cases hquiet

theorem layoutOptions_nodup : layoutOptions.Nodup := by decide

theorem execute_keys (p : Page) (keys : List KeyboardEvent) :
    execute step p (keys.map .keydown) = some (keys.foldl Page.handleKeyDown p) := by
  induction keys generalizing p with
  | nil => rfl
  | cons e keys ih => exact ih (p.handleKeyDown e)

theorem walking_tab (hp : Walking hosts p) (hsize : 1 < hosts.size) (hnames : "" ∉ hosts) {i : Nat}
    (hi : i < hosts.size) (hselected : p.selectedOutputHost = Cycle.item hosts.toList i)
    {es : List Event} (hquiet : ∀ e ∈ es, e.quiet = true) (h : execute step p es = some t) :
    Walking hosts t ∧ t.selectedOutputHost = Cycle.item hosts.toList
      ((i + Cycle.distance (es.filterMap (Event.press "Tab"))) % hosts.toList.length) := by
  have hlen : hosts.toList.length = hosts.size := rfl
  have hmod : (i : Int) % hosts.toList.length = i := Int.emod_eq_of_lt (by omega) (by omega)
  refine Cycle.execute_item (fun e => e.quiet = true) (Walking hosts) Page.selectedOutputHost
    hosts.nodup ?_ hquiet hp (hmod.symm ▸ hselected) (List.length_pos_iff.mp (by omega)) h
  intro p e t a hp hq hstep ha
  obtain ⟨hwalking, hmoved⟩ := step_moved hp hsize hnames hq hstep
  exact ⟨hwalking, hp.hosts ▸ hmoved.tab a ha⟩

theorem walking_layout (hp : Walking hosts p) (hsize : 1 < hosts.size) (hnames : "" ∉ hosts) {j : Nat}
    (hj : j < layoutOptions.length) (hlayout : some p.layoutType = Cycle.item layoutOptions j)
    {es : List Event} (hquiet : ∀ e ∈ es, e.quiet = true) (h : execute step p es = some t) :
    some t.layoutType = Cycle.item layoutOptions
      ((j + Cycle.distance (es.filterMap (Event.press "`"))) % layoutOptions.length) := by
  have hmod : (j : Int) % layoutOptions.length = j := Int.emod_eq_of_lt (by omega) (by omega)
  refine (Cycle.execute_item (fun e => e.quiet = true) (Walking hosts)
    (fun p => some p.layoutType) layoutOptions_nodup ?_ hquiet hp (hmod.symm ▸ hlayout)
    (by decide) h).2
  intro p e t a hp hq hstep ha
  obtain ⟨hwalking, hmoved⟩ := step_moved hp hsize hnames hq hstep
  cases ha
  exact ⟨hwalking, hmoved.layout⟩

def tabKey : KeyboardEvent := ⟨"Tab", false, false⟩

theorem distance_replicate (k : Nat) : Cycle.distance (List.replicate k false) = k := by
  induction k with
  | zero => rfl
  | succ k ih =>
      rw [List.replicate_succ, Cycle.distance, ih]
      simp [Cycle.sign]
      omega

end Walk

theorem exists_position {l : List String} {a : String} (h : a ∈ l) :
    ∃ i : Nat, i < l.length ∧ Cycle.item l i = some a := by
  obtain ⟨i, hi⟩ := List.mem_iff_getElem?.mp h
  exact ⟨i, (List.getElem?_eq_some_iff.mp hi).1, Cycle.item_some.mpr ⟨i, rfl, hi⟩⟩

/-- From every page that is reached with no modal open and several tabs, one of them
selected: whatever happens besides that leaves tabs, layouts and modals alone, the
selected tab and the layout are as far around as the presses of their keys go; and as
many presses of the key as there are tabs show each tab once. -/
theorem keys_walk {innerHeight : Int} {p : Page} (h : Reaches step (loaded innerHeight) p)
    (hidle : p.modalOpen = false) (hsize : 1 < p.outputHosts.size) (hnames : "" ∉ p.outputHosts)
    (hproto : p.selectedOutputHost ≠ some "__proto__") :
    ∃ i j : Nat, p.selectedOutputHost = Cycle.item p.outputHosts.toList i ∧
      some p.layoutType = Cycle.item layoutOptions j ∧
      (∀ es q, (∀ e ∈ es, e.quiet = true) → execute step p es = some q →
        q.selectedOutputHost = Cycle.item p.outputHosts.toList
          ((i + Cycle.distance (es.filterMap (Event.press "Tab"))) % p.outputHosts.toList.length) ∧
        some q.layoutType = Cycle.item layoutOptions
          ((j + Cycle.distance (es.filterMap (Event.press "`"))) % layoutOptions.length)) ∧
      ((List.range p.outputHosts.size).map fun k =>
        ((List.replicate k tabKey).foldl Page.handleKeyDown p).selectedOutputHost).Perm
          (p.outputHosts.toList.map some) := by
  have hsound := reaches_sound h
  have hlen : p.outputHosts.toList.length = p.outputHosts.size := rfl
  obtain ⟨selected, hselected, htab⟩ :=
    hsound.tab hnames (List.length_pos_iff.mp (by omega))
  have hmem : selected ∈ p.outputHosts :=
    htab.resolve_right fun heq => hproto (heq ▸ hselected)
  obtain ⟨i, hi, hitem⟩ := exists_position hmem
  obtain ⟨j, hj, hlayout⟩ := exists_position hsound.layout
  have hwalking : Walking p.outputHosts p := by
    refine ⟨hidle, hsound.opened, rfl, fun hempty => ?_⟩
    rw [hselected] at hempty
    exact hnames (Option.some.inj hempty ▸ hmem)
  have hwalk : ∀ es q, (∀ e ∈ es, e.quiet = true) → execute step p es = some q →
      q.selectedOutputHost = Cycle.item p.outputHosts.toList
        ((i + Cycle.distance (es.filterMap (Event.press "Tab"))) % p.outputHosts.toList.length) :=
    fun _ _ hquiet hrun =>
      (walking_tab hwalking hsize hnames hi (hselected.trans hitem.symm) hquiet hrun).2
  refine ⟨i, j, hselected.trans hitem.symm, hlayout.symm, fun es q hquiet hrun => ⟨?_, ?_⟩, ?_⟩
  · exact hwalk es q hquiet hrun
  · exact walking_layout hwalking hsize hnames hj hlayout.symm hquiet hrun
  · have hvisits : ∀ k : Nat,
        ((List.replicate k tabKey).foldl Page.handleKeyDown p).selectedOutputHost =
          Cycle.item p.outputHosts.toList ((i + k : Int) % p.outputHosts.toList.length) := by
      intro k
      have hrun := execute_keys p (List.replicate k tabKey)
      rw [List.map_replicate] at hrun
      have hpress : (List.replicate k (Event.keydown tabKey)).filterMap (Event.press "Tab") =
          List.replicate k false := by
        rw [List.filterMap_replicate]
        rfl
      rw [hwalk _ _ (fun e he => List.eq_of_mem_replicate he ▸ rfl) hrun, hpress, distance_replicate]
    rw [List.map_congr_left fun k _ => hvisits k]
    exact Cycle.lap_perm _ i

/-- From a page with two tabs, one press further and one back. -/
theorem keys_walk_two : ∃ (p : Page) (i : Nat),
    p.selectedOutputHost = Cycle.item ["node", "db"] i ∧
      ∀ es q, (∀ e ∈ es, e.quiet = true) → execute step p es = some q →
        q.selectedOutputHost = Cycle.item ["node", "db"]
          ((i + Cycle.distance (es.filterMap (Event.press "Tab"))) % 2) := by
  have hrun : execute step (loaded 900) [.results .prefs (.ofList ["node", "db"])] = some _ := rfl
  obtain ⟨i, _, hselected, _, hwalk, _⟩ :=
    keys_walk (execute_reaches hrun) (by decide) (by decide) (by decide) (by decide)
  exact ⟨_, i, hselected, fun es q hquiet hrun => (hwalk es q hquiet hrun).1⟩

/-! ## Minimized and restored -/

/-- Events that neither drag the panel nor minimize or restore it. -/
def Event.leavesPanel : Event → Bool
  | .toggleMinimize | .mousemove _ => false
  | .keydown e => e.key ≠ " "
  | _ => true

def Page.heights (p : Page) : Int × Int := (p.statusPanelHeight, p.previousPanelHeight)

section Panel

variable {p t : Page}

theorem toggle_minimized (h : p.isMinimized = true) (hroom : minHeight < p.previousPanelHeight) :
    p.toggleMinimizePanel = { p with statusPanelHeight := p.previousPanelHeight } := by
  unfold Page.toggleMinimizePanel
  rw [if_pos h, if_pos hroom]

theorem toggle_expanded (h : p.isMinimized = false) : p.toggleMinimizePanel =
    { p with previousPanelHeight := p.statusPanelHeight, statusPanelHeight := minHeight } := by
  unfold Page.toggleMinimizePanel
  rw [h]
  rfl

theorem expanded_iff : p.isMinimized = false ↔ minHeight < p.statusPanelHeight := by
  unfold Page.isMinimized
  rw [decide_eq_false_iff_not]
  omega

/-- The height to restore stays one that is not minimized. -/
theorem toggle_previous (hp : minHeight < p.previousPanelHeight) :
    minHeight < p.toggleMinimizePanel.previousPanelHeight := by
  cases hmin : p.isMinimized with
  | true =>
      rw [toggle_minimized hmin hp]
      exact hp
  | false =>
      rw [toggle_expanded hmin]
      exact expanded_iff.mp hmin

theorem keydown_heights {e : KeyboardEvent} (h : Key p e t) :
    (e.key = " " ∧ t = p.toggleMinimizePanel) ∨ t.heights = p.heights := by
  cases h with
  | spacebar hkey => exact .inl ⟨hkey, rfl⟩
  | ignored | reset => exact .inr rfl
  | escape =>
      obtain ⟨_, _, _, _, heq, _⟩ := escape_eq p
      rw [heq]
      exact .inr rfl
  | tab =>
      right
      rcases tab_eq p e.shiftKey with heq | ⟨_, _, heq⟩
      · rw [heq]
      · rw [heq]
        rfl
  | backtick =>
      obtain ⟨_, _, heq⟩ := backtick_eq p e.shiftKey
      rw [heq]
      exact .inr rfl

theorem showResults_heights (p : Page) (command : Command) (hosts : OrderedSet String) :
    (p.showResults command hosts).heights = p.heights := by
  have hclose : ∀ q : Page, (q.closeModal command).heights = q.heights := by
    intro q
    cases command <;> rfl
  unfold Page.showResults
  dsimp only
  rw [hclose]
  cases hosts.toList.head? with
  | none => rfl
  | some firstHost =>
      dsimp only
      split <;> rfl

/-- Only the buttons, the space bar and the mouse change the heights, and the mouse
not the one to restore. -/
theorem step_heights {e : Event} (h : step p e = some t) :
    t.heights = p.heights ∨ e.leavesPanel = false ∧
      (t = p.toggleMinimizePanel ∨ t.previousPanelHeight = p.previousPanelHeight) := by
  cases e with
  | keydown e =>
      cases h
      rcases keydown_heights (keydown_key p e) with ⟨hkey, heq⟩ | heq
      · exact .inr ⟨decide_eq_false (not_not.mpr hkey), .inl heq⟩
      · exact .inl heq
  | toggleMinimize =>
      cases h
      exact .inr ⟨rfl, .inl rfl⟩
  | mousemove clientY =>
      cases h
      refine .inr ⟨rfl, .inr ?_⟩
      split
      · obtain ⟨_, heq⟩ := resizeMove_eq p clientY
        rw [heq]
      · rfl
  | selectTab =>
      obtain ⟨_, ⟨⟩⟩ := Option.ite_none_right_eq_some.mp h
      exact .inl rfl
  | selectLayout =>
      obtain ⟨_, ⟨⟩⟩ := Option.ite_none_right_eq_some.mp h
      exact .inl rfl
  | typeDNS =>
      obtain ⟨_, ⟨⟩⟩ := Option.ite_none_right_eq_some.mp h
      exact .inl rfl
  | typePprof =>
      obtain ⟨_, ⟨⟩⟩ := Option.ite_none_right_eq_some.mp h
      exact .inl rfl
  | stream =>
      obtain ⟨_, ⟨⟩⟩ := Option.ite_none_right_eq_some.mp h
      exact .inl rfl
  | results command hosts =>
      cases h
      exact .inl (showResults_heights p command hosts)
  | resizeStart | mouseup | resizeWindow | reset | openContextMenu | openQueryDNS | openPprof
  | closeQueryDNS | closePprof =>
      cases h
      exact .inl rfl

theorem step_previous {e : Event} (hp : minHeight < p.previousPanelHeight)
    (h : step p e = some t) : minHeight < t.previousPanelHeight := by
  rcases step_heights h with heq | ⟨_, rfl | heq⟩
  · rw [show t.previousPanelHeight = p.previousPanelHeight from congrArg Prod.snd heq]
    exact hp
  · exact toggle_previous hp
  · rw [heq]
    exact hp

theorem reaches_previous {innerHeight : Int} (hroom : minHeight < expandedHeight innerHeight)
    (h : Reaches step (loaded innerHeight) p) : minHeight < p.previousPanelHeight :=
  Reaches.invariant (P := fun p => minHeight < p.previousPanelHeight)
    (fun hs hl => step_previous hs hl) h hroom

theorem execute_heights {es : List Event} (hleaves : ∀ e ∈ es, e.leavesPanel = true)
    (h : execute step p es = some t) : t.heights = p.heights := by
  refine @execute_invariant_on _ _ _ _ _ (fun e => e.leavesPanel = true)
    (fun _ t => t.heights = p.heights) ?_ [] es hleaves rfl h
  intro _ s e t hs he hstep
  rcases step_heights hstep with heq | ⟨hnot, _⟩
  · exact heq.trans hs
  · rw [he] at hnot
    cases hnot

end Panel

/-- Where half of the first window is more than the least height: on every page that
is reached, however the window has changed, the button (and the space bar) goes
between minimized and expanded, and what was minimized comes back at its height,
whatever happens in between that does not drag or toggle the panel. -/
theorem panel_restores {innerHeight : Int} (hroom : minHeight < expandedHeight innerHeight)
    {p : Page} (h : Reaches step (loaded innerHeight) p) :
    p.toggleMinimizePanel.isMinimized = !p.isMinimized ∧
      (p.isMinimized = false → ∀ es q, (∀ e ∈ es, e.leavesPanel = true) →
        execute step p.toggleMinimizePanel es = some q →
          q.toggleMinimizePanel.statusPanelHeight = p.statusPanelHeight) := by
  have hprevious := reaches_previous hroom h
  constructor
  · cases hmin : p.isMinimized with
    | true =>
        rw [toggle_minimized hmin hprevious, Bool.not_true, expanded_iff]
        exact hprevious
    | false =>
        rw [toggle_expanded hmin]
        rfl
  · intro hmin es q hleaves hrun
    have hheights := execute_heights hleaves hrun
    rw [toggle_expanded hmin] at hheights
    have hheight : q.statusPanelHeight = minHeight := congrArg Prod.fst hheights
    have hkept : q.previousPanelHeight = p.statusPanelHeight := congrArg Prod.snd hheights
    have hqmin : q.isMinimized = true := by
      unfold Page.isMinimized
      rw [hheight]
      rfl
    have hqroom : minHeight < q.previousPanelHeight := hkept.symm ▸ expanded_iff.mp hmin
    rw [toggle_minimized hqmin hqroom]
    exact hkept

/-- A panel that was dragged to four hundred. -/
theorem panel_restores_dragged : ∃ p : Page, p.statusPanelHeight = 400 ∧
    p.toggleMinimizePanel.isMinimized = true ∧
      ∀ es q, (∀ e ∈ es, e.leavesPanel = true) → execute step p.toggleMinimizePanel es = some q →
        q.toggleMinimizePanel.statusPanelHeight = 400 := by
  have hrun : execute step (loaded 900) [.resizeStart, .mousemove 500, .mouseup] = some _ := rfl
  have hroom : minHeight < expandedHeight 900 := by decide
  have hrestores := panel_restores hroom (execute_reaches hrun)
  exact ⟨_, rfl, hrestores.1, hrestores.2 rfl⟩

end TSymbiote.Frontend.Shortcuts
