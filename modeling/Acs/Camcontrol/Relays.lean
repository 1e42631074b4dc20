/-
  Acs/Camcontrol/Relays.lean
  ==========================
  **What the button and the gateway do to the camera relay.**

  A button counts as changed when a sample differs from the accepted one while
  the count is five.  The count is not cleared by a sample that does not differ,
  so that it is a count of consecutive samples only if no such sample comes in
  between (`debounced_run`).

  The relay state in the flash is written when the button toggles the relays, and
  not when the gateway does.  It is the state of the relay exactly as long as the
  gateway asks for what is so already (`relayKept_iff`).
-/
import Acs.Camcontrol.Main

namespace Acs.Camcontrol

open Acs Runs

namespace System

/-! ### One turn of the loop -/

/-- The flags, the flash and the copy of it are the same. -/
structure SameFlags (s s' : System) : Prop where
  stored : s'.stored = s.stored
  relayState : s'.relayState = s.relayState
  cameraRelayOn : s'.cameraRelayOn = s.cameraRelayOn
  estopRelayOn : s'.estopRelayOn = s.estopRelayOn

theorem sameFlags_setRelays (s : System) (l : Locals) : SameFlags s (s.setRelays l).1 := by
  rw [setRelays]
  dsimp only
  split
  · split <;> exact ⟨rfl, rfl, rfl, rfl⟩
  · split <;> exact ⟨rfl, rfl, rfl, rfl⟩

/-- The reports leave the button alone. -/
theorem button_setRelays (s : System) (l : Locals) :
    (s.setRelays l).2.lastButton = l.lastButton ∧ (s.setRelays l).2.debounce = l.debounce ∧
      (s.setRelays l).2.samples = l.samples := by
  rw [setRelays]
  dsimp only
  split <;> exact ⟨rfl, rfl, rfl⟩

/-- The locals after one turn, unless it ends in the nightly reboot. -/
theorem iterate_cases {s : System} {l : Locals} (hphase : s.phase = .looping l) (button : Bool)
    (currentTime : Int) :
    (s.iterate button currentTime).phase = .booting ∧
        (s.iterate button currentTime).stored = (s.checkButton l button).1.stored ∧
        (s.iterate button currentTime).relayState = (s.checkButton l button).1.stored.getD false ∨
      SameFlags (s.checkButton l button).1 (s.iterate button currentTime) ∧
        (s.iterate button currentTime).phase =
          .looping ((s.checkButton l button).1.setRelays (s.checkButton l button).2).2 := by
  have hsame := sameFlags_setRelays (s.checkButton l button).1 (s.checkButton l button).2
  rw [iterate, hphase]
  dsimp only
  rw [scheduledReboot]
  split
  · exact .inl ⟨rfl, hsame.stored, congrArg (Option.getD · false) hsame.stored⟩
  · exact .inr ⟨⟨hsame.stored, hsame.relayState, hsame.cameraRelayOn, hsame.estopRelayOn⟩, rfl⟩

/-- Outside of the loop there is no turn. -/
theorem iterate_of_not_looping {s : System} (h : ∀ l, s.phase ≠ .looping l) (button : Bool)
    (currentTime : Int) : s.iterate button currentTime = s := by
  rw [iterate]
  split
  · next l hphase => exact absurd hphase (h l)
  · rfl

/-! ### The button -/

/-- The locals, in the loop. -/
def locals (s : System) : Option Locals :=
  match s.phase with
  | .looping l => some l
  | _ => none

theorem mem_locals {s : System} {l : Locals} : l ∈ s.locals ↔ s.phase = .looping l := by
  rw [locals]
  cases s.phase with
  | looping l' => simp
  | _ => simp

/-- The sample `button` ends six samples that all differ from the accepted one. -/
def SixDiffer (l : Locals) (button : Bool) : Prop :=
  ∃ six : List Bool, six.length = 6 ∧ six <:+ l.samples ++ [button] ∧ ∀ b ∈ six, b ≠ l.lastButton

/-- The accepted button, and with it the relays, change with the last of six
    samples only. -/
def Debounced (s : System) : Event → Prop
  | .iterate button _ => ∀ l ∈ s.locals,
      (s.checkButton l button).2.lastButton ≠ l.lastButton ∨
        (s.checkButton l button).1.cameraRelayOn ≠ s.cameraRelayOn ∨
        (s.checkButton l button).1.estopRelayOn ≠ s.estopRelayOn →
      SixDiffer l button
  | _ => True

/-- A sample that does not differ comes only when the count is zero. -/
def Settled (s : System) : Event → Prop
  | .iterate button _ => ∀ l ∈ s.locals, button = l.lastButton → l.debounce = 0
  | _ => True

instance (s : System) : ∀ event, Decidable (Settled s event)
  | .iterate button _ =>
      inferInstanceAs (Decidable (∀ l ∈ s.locals, button = l.lastButton → l.debounce = 0))
  | .bootFailed | .start _ _ | .enterLoop | .reply _ _ | .reboot => .isTrue trivial

/-- The count is the number of samples at the end that differ. -/
def Counts (l : Locals) : Prop :=
  l.debounce ≤ 5 ∧ ∃ differing : List Bool, differing.length = l.debounce ∧
    differing <:+ l.samples ∧ ∀ b ∈ differing, b ≠ l.lastButton

def Counting (s : System) : Prop := ∀ l ∈ s.locals, Counts l

/-- The count with one more differing sample. -/
theorem Counts.more {l : Locals} (h : Counts l) {button : Bool} (hne : button ≠ l.lastButton) :
    ∃ differing : List Bool, differing.length = l.debounce + 1 ∧
      differing <:+ l.samples ++ [button] ∧ ∀ b ∈ differing, b ≠ l.lastButton := by
  obtain ⟨-, differing, hlen, hsuffix, hdiffer⟩ := h
  refine ⟨differing ++ [button], ?_, ?_, ?_⟩
  · rw [List.length_append, List.length_singleton, hlen]
  · exact List.suffix_append_self_iff.mpr hsuffix
  · rw [List.forall_mem_append, List.forall_mem_singleton]
    exact ⟨hdiffer, hne⟩

theorem checkButton_of_eq (s : System) {l : Locals} {button : Bool} (h : button = l.lastButton) :
    s.checkButton l button = (s, { l with samples := l.samples ++ [button] }) := by
  rw [checkButton]
  exact if_neg (not_not.mpr h)

theorem checkButton_of_low (s : System) {l : Locals} {button : Bool} (h : button ≠ l.lastButton)
    (hlow : l.debounce < 5) :
    s.checkButton l button =
      (s, { l with samples := l.samples ++ [button], debounce := l.debounce + 1 }) := by
  have hnot : ¬ l.debounce + 1 > 5 := by omega
  rw [checkButton, if_pos h]
  exact if_neg hnot

theorem checkButton_of_high (s : System) {l : Locals} {button : Bool} (h : button ≠ l.lastButton)
    (hhigh : 5 ≤ l.debounce) :
    s.checkButton l button =
      (if !button then s.toggle else s,
        { l with samples := l.samples ++ [button], debounce := 0, lastButton := button }) := by
  have hmore : l.debounce + 1 > 5 := by omega
  rw [checkButton, if_pos h]
  exact if_pos hmore

theorem Counts.checkButton {l : Locals} (h : Counts l) (s : System) {button : Bool}
    (hsettled : button = l.lastButton → l.debounce = 0) :
    Counts (s.checkButton l button).2 := by
  by_cases heq : button = l.lastButton
  · rw [checkButton_of_eq s heq]
    exact ⟨h.1, [], (hsettled heq).symm, List.nil_suffix, List.forall_mem_nil _⟩
  · by_cases hlow : l.debounce < 5
    · rw [checkButton_of_low s heq hlow]
      exact ⟨hlow, h.more heq⟩
    · rw [checkButton_of_high s heq (Nat.not_lt.mp hlow)]
      exact ⟨Nat.zero_le 5, [], rfl, List.nil_suffix, List.forall_mem_nil _⟩

/-- Where the count is right, a change comes with the sixth sample. -/
theorem Counting.debounced {s : System} (h : Counting s) (event : Event) :
    Debounced s event := by
  cases event with
  | iterate button currentTime =>
    intro l hphase hchange
    have hcounts := h l hphase
    by_cases heq : button = l.lastButton
    · rw [checkButton_of_eq s heq] at hchange
      tauto
    · by_cases hlow : l.debounce < 5
      · rw [checkButton_of_low s heq hlow] at hchange
        tauto
      · obtain ⟨differing, hlen, hsuffix, hdiffer⟩ := hcounts.more heq
        have hfive : l.debounce = 5 := Nat.le_antisymm hcounts.1 (Nat.not_lt.mp hlow)
        rw [hfive] at hlen
        exact ⟨differing, hlen, hsuffix, hdiffer⟩
  | _ => trivial

/-- A reply leaves `app_main` where it is, or restarts it. -/
theorem phase_setGwStatus (s : System) (version : Bytes) (reply : Reply) :
    (s.setGwStatus version reply).phase = s.phase ∨
      (s.setGwStatus version reply).phase = .booting := by
  have hdisconnect : ∀ s' : System, s'.phase = s.phase →
      s'.disconnect.phase = s.phase ∨ s'.disconnect.phase = .booting := by
    intro s' h
    rw [disconnect]
    dsimp only
    split
    · exact .inr rfl
    · exact .inl h
  cases hrebooting : s.rebooting with
  | true =>
    left
    rw [setGwStatus.eq_def, hrebooting]
    rfl
  | false =>
    rw [setGwStatus.eq_def, hrebooting]
    cases reply with
    | noToken => exact hdisconnect s rfl
    | failed => exact hdisconnect _ rfl
    | noAction => exact .inl rfl
    | action action =>
      left
      show (execute _ action).phase = s.phase
      rw [execute]
      split
      · rfl
      · split
        · rfl
        · split <;> rfl

theorem counting_of_phase {s s' : System} (h : Counting s)
    (hphase : s'.phase = s.phase ∨ s'.phase = .booting) : Counting s' := by
  intro l hl
  rw [mem_locals] at hl
  rcases hphase with hphase | hphase
  · exact h l (mem_locals.mpr (hphase ▸ hl))
  · rw [hphase] at hl
    cases hl

theorem Counting.start {s : System} (h : Counting s) (startTime rebootMinute : Int) :
    Counting (s.start startTime rebootMinute) := by
  rw [System.start]
  split
  · intro l hl
    cases hl
  · exact h

theorem Counting.enterLoop {s : System} (h : Counting s) : Counting s.enterLoop := by
  rw [System.enterLoop]
  split
  · intro l hl
    cases hl
    exact ⟨Nat.zero_le 5, [], rfl, List.nil_suffix, List.forall_mem_nil _⟩
  · exact h

theorem Counting.iterate {s : System} (h : Counting s) {button : Bool} {currentTime : Int}
    (hsettled : Settled s (.iterate button currentTime)) :
    Counting (s.iterate button currentTime) := by
  by_cases hlooping : ∃ l, s.phase = .looping l
  · obtain ⟨l, hphase⟩ := hlooping
    have hmem := mem_locals.mpr hphase
    have hcounts := (h l hmem).checkButton s (hsettled l hmem)
    obtain ⟨hlast, hdebounce, hsamples⟩ :=
      button_setRelays (s.checkButton l button).1 (s.checkButton l button).2
    intro l' hl'
    rw [mem_locals] at hl'
    rcases iterate_cases hphase button currentTime with ⟨hboot, -, -⟩ | ⟨-, hloop⟩
    · rw [hboot] at hl'
      cases hl'
    · rw [hloop] at hl'
      cases hl'
      rw [Counts, hlast, hdebounce, hsamples]
      exact hcounts
  · rw [iterate_of_not_looping (not_exists.mp hlooping)]
    exact h

theorem Counting.step {s : System} (h : Counting s) {event : Event} (hsettled : Settled s event) :
    Counting (Camcontrol.step s event) := by
  have hclear : Counting s.clearCalls := h
  cases event with
  | bootFailed =>
    apply counting_of_phase hclear
    rw [Camcontrol.step]
    split
    · exact .inr rfl
    · exact .inl rfl
  | start startTime rebootMinute => exact hclear.start startTime rebootMinute
  | enterLoop => exact hclear.enterLoop
  | iterate button currentTime => exact hclear.iterate hsettled
  | reply version reply => exact counting_of_phase hclear (phase_setGwStatus _ version reply)
  | reboot =>
    apply counting_of_phase hclear
    rw [Camcontrol.step]
    split
    · exact .inr rfl
    · exact .inl rfl

theorem counting_powerOn (stored : Option Bool) : Counting (powerOn stored) := by
  intro l hl
  cases hl

end System

/-- **The button, when it settles.**  If each sample that is as the accepted one
    comes with a count of zero, the relays change with the last of six samples
    that differ. -/
theorem debounced_run (stored : Option Bool) (events : List Event)
    (hsettled : Along step System.Settled (powerOn stored) events) :
    Along step System.Debounced (powerOn stored) events := by
  rw [along_iff]
  rintro before event after rfl
  have hcounting : System.Counting (run stored before) :=
    exec_invariant step System.Settled System.Counting (fun _ _ h hs => h.step hs)
      (System.counting_powerOn stored) (along_append.mp hsettled).1
  exact hcounting.debounced event

/-- Six samples that all differ are the last six. -/
theorem System.SixDiffer.last {l : Locals} {button : Bool} (h : SixDiffer l button) :
    ∀ b ∈ (l.samples ++ [button]).drop ((l.samples ++ [button]).length - 6), b ≠ l.lastButton := by
  obtain ⟨six, hlen, hsuffix, hdiffer⟩ := h
  rw [List.suffix_iff_eq_drop, hlen] at hsuffix
  rw [← hsuffix]
  exact hdiffer

/-- The button is pressed for 60 ms and released for 60 ms. -/
def pressed : List Event :=
  [.start 1700000000 25, .enterLoop] ++
    List.replicate 6 (.iterate true 1700000005) ++ List.replicate 6 (.iterate false 1700000006)

theorem debounced_run_sample :
    Along step System.Debounced (powerOn none) pressed ∧
      (run none pressed).cameraRelayOn = true :=
  ⟨debounced_run none pressed (by decide), by decide⟩

/-- Every other sample is a glitch of 10 ms. -/
def glitches : List Event :=
  [.start 1700000000 25, .enterLoop] ++
    (List.replicate 5 [.iterate true 1700000005, .iterate false 1700000005]).flatten

theorem not_debounced :
    ¬ ∀ stored events, Along step System.Debounced (powerOn stored) events := by
  intro h
  have hsix := along_iff.mp (h none (glitches ++ [.iterate true 1700000005])) glitches
    (.iterate true 1700000005) [] rfl
  have hloop : ∃ l ∈ (run none glitches).locals, (l.samples ++ [true]).drop 5 =
      [false, true, false, true, false, true] ∧ (l.samples ++ [true]).length = 11 ∧
      l.lastButton = false ∧ l.debounce = 5 := by decide
  obtain ⟨l, hl, hdrop, hlen, hlast, hcount⟩ := hloop
  have hchange : (System.checkButton (run none glitches) l true).2.lastButton ≠ l.lastButton := by
    rw [System.checkButton_of_high _ (by rw [hlast]; decide) hcount.ge, hlast]
    exact (by decide : true ≠ false)
  have hdiffer := (hsix l hl (.inl hchange)).last
  rw [hlen, hdrop, hlast] at hdiffer
  exact hdiffer false List.mem_cons_self rfl

namespace System

/-- The locals do not depend on the flags. -/
theorem checkButton_snd (s s' : System) (l : Locals) (button : Bool) :
    (s.checkButton l button).2 = (s'.checkButton l button).2 := by
  rw [checkButton, checkButton]
  split
  · split <;> rfl
  · rfl

theorem samples_checkButton (s : System) (l : Locals) (button : Bool) :
    (s.checkButton l button).2.samples = l.samples ++ [button] ∧
      (s.checkButton l button).2.startTime = l.startTime := by
  rw [checkButton]
  split
  · split <;> exact ⟨rfl, rfl⟩
  · exact ⟨rfl, rfl⟩

theorem startTime_setRelays (s : System) (l : Locals) :
    (s.setRelays l).2.startTime = l.startTime := by
  rw [setRelays]
  dsimp only
  split <;> rfl

/-- One turn of the loop, at a time at which there is no reboot. -/
theorem exists_locals_iterate {s : System} {l : Locals} (hl : l ∈ s.locals) (button : Bool) :
    ∃ l' ∈ (step s (.iterate button l.startTime)).locals, l'.startTime = l.startTime ∧
      l'.lastButton = (s.checkButton l button).2.lastButton ∧
      l'.debounce = (s.checkButton l button).2.debounce ∧ l'.samples = l.samples ++ [button] := by
  have hphase : s.clearCalls.phase = .looping l := mem_locals.mp hl
  have hnot : ∀ l' : Locals, l'.startTime = l.startTime →
      ¬ (l.startTime - l'.startTime > 15 * 60 ∧ tmHour l.startTime = 2 ∧
        tmMin l.startTime = l'.rebootMinute) := by
    intro l' h
    omega
  obtain ⟨hlast, hdebounce, hsamples⟩ :=
    button_setRelays (s.clearCalls.checkButton l button).1 (s.clearCalls.checkButton l button).2
  have htime := startTime_setRelays (s.clearCalls.checkButton l button).1
    (s.clearCalls.checkButton l button).2
  rw [(samples_checkButton s.clearCalls l button).2] at htime
  rw [(samples_checkButton s.clearCalls l button).1] at hsamples
  have hsnd := checkButton_snd s.clearCalls s l button
  refine ⟨_, mem_locals.mpr ?_, htime, hlast.trans (congrArg Locals.lastButton hsnd),
    hdebounce.trans (congrArg Locals.debounce hsnd), hsamples⟩
  rw [step, iterate, hphase]
  dsimp only
  rw [scheduledReboot, if_neg (hnot _ htime)]

/-- As long as the count is below five, samples that differ are counted. -/
theorem exists_locals_exec {s : System} {l : Locals} (hl : l ∈ s.locals) {n : Nat}
    (hn : n ≤ 5 - l.debounce) :
    ∃ l' ∈ (exec step s (List.replicate n (.iterate (!l.lastButton) l.startTime))).locals,
      l'.lastButton = l.lastButton ∧ l'.debounce = l.debounce + n ∧
        l'.samples = l.samples ++ List.replicate n (!l.lastButton) := by
  have hne : (!l.lastButton) ≠ l.lastButton := Bool.not_ne_self l.lastButton
  induction n generalizing s l with
  | zero => exact ⟨l, hl, rfl, rfl, (List.append_nil _).symm⟩
  | succ n ih =>
    obtain ⟨l₁, hl₁, htime, hlast, hdebounce, hsamples⟩ :=
      exists_locals_iterate hl (!l.lastButton)
    rw [checkButton_of_low s hne (by omega)] at hlast hdebounce
    dsimp only at hlast hdebounce
    obtain ⟨l', hl', hlast', hdebounce', hsamples'⟩ :=
      ih hl₁ (by omega) (Bool.not_ne_self l₁.lastButton)
    rw [htime, hlast] at hl'
    rw [hlast, hsamples] at hsamples'
    refine ⟨l', hl', hlast'.trans hlast, by omega, ?_⟩
    rw [hsamples', List.replicate_succ, List.append_assoc, List.singleton_append]

/-- **A sample that clears nothing**: when one that is as the accepted one comes
    with a count above zero, there is a continuation in which the button changes
    too early. -/
theorem not_debounced_of_unsettled {s : System} {l : Locals} (hl : l ∈ s.locals)
    (hcount : 0 < l.debounce) :
    ∃ more, ¬ Along step Debounced s (.iterate l.lastButton l.startTime :: more) := by
  obtain ⟨l₁, hl₁, htime, hlast, hdebounce, hsamples⟩ := exists_locals_iterate hl l.lastButton
  rw [checkButton_of_eq s rfl] at hlast hdebounce
  dsimp only at hlast hdebounce
  obtain ⟨l₂, hl₂, hlast₂, hdebounce₂, hsamples₂⟩ :=
    exists_locals_exec hl₁ (Nat.le_refl (5 - l₁.debounce))
  refine ⟨List.replicate (5 - l₁.debounce) (.iterate (!l₁.lastButton) l₁.startTime) ++
    [.iterate (!l₂.lastButton) 0], ?_⟩
  rintro ⟨-, halong⟩
  obtain ⟨-, hdebounced, -⟩ := along_append.mp halong
  have hhigh : 5 ≤ l₂.debounce := by omega
  have hchange : (checkButton (exec step (step s (.iterate l.lastButton l.startTime))
      (List.replicate (5 - l₁.debounce) (.iterate (!l₁.lastButton) l₁.startTime))) l₂
      (!l₂.lastButton)).2.lastButton ≠ l₂.lastButton := by
    rw [checkButton_of_high _ (Bool.not_ne_self _) hhigh]
    exact Bool.not_ne_self _
  obtain ⟨six, hlen, hsuffix, hdiffer⟩ := hdebounced l₂ hl₂ (.inl hchange)
  -- the sample that did not differ is among the last six
  have htail : l₁.lastButton :: List.replicate (5 - l₁.debounce) (!l₁.lastButton) ++
      [!l₂.lastButton] <:+ l₂.samples ++ [!l₂.lastButton] := by
    refine List.suffix_append_self_iff.mpr ⟨l.samples, ?_⟩
    rw [hsamples₂, hsamples, hlast, List.append_assoc, List.singleton_append]
  have hinside := List.suffix_of_suffix_length_le htail hsuffix (by simp; omega)
  exact hdiffer l₁.lastButton (hinside.subset (by simp)) hlast₂.symm

end System

/-! ### The relay state -/

namespace System

/-- The flash and the copy of it agree. -/
def Synced (s : System) : Prop := s.stored.getD false = s.relayState

/-- The relay state is that of the relay, and a restart finds it again. -/
def RelayKept (s : System) : Prop :=
  s.phase ≠ .booting → s.getRelayState = s.cameraRelayOn ∧
    ∀ startTime rebootMinute, (s.restart.start startTime rebootMinute).cameraRelayOn =
      s.cameraRelayOn

/-- The gateway asks for what is so already. -/
def NothingToDo (s : System) : Event → Prop
  | .reply _ (.action action) => s.phase ≠ .booting → s.rebooting = false →
      (action = str "on" → s.cameraRelayOn = true) ∧ (action = str "off" → s.cameraRelayOn = false)
  | _ => True

theorem relayKept_iff_of_synced {s : System} (h : Synced s) :
    RelayKept s ↔ (s.phase ≠ .booting → s.relayState = s.cameraRelayOn) := by
  constructor
  · intro hkept hphase
    exact (hkept hphase).1
  · intro hsame hphase
    refine ⟨hsame hphase, fun startTime rebootMinute => ?_⟩
    show s.stored.getD false = s.cameraRelayOn
    rw [h, hsame hphase]

/-- A restart leads to the boot, where nothing is claimed. -/
theorem relayKept_of_booting {s : System} (h : s.phase = .booting) : RelayKept s :=
  fun hphase => absurd h hphase

/-- The flash and its copy are the same as before, or those of a restart. -/
theorem Synced.of_same {s s' : System} (h : Synced s) (hstored : s'.stored = s.stored)
    (hstate : s'.relayState = s.relayState) : Synced s' := by
  rw [Synced, hstored, hstate]
  exact h

theorem relayKept_of_same {s : System} (hsync : Synced s) (h : s.relayState = s.cameraRelayOn) :
    RelayKept s :=
  (relayKept_iff_of_synced hsync).mpr fun _ => h

/-- The button writes both flags and both copies. -/
theorem checkButton_relay (s : System) (l : Locals) (button : Bool) :
    SameFlags s (s.checkButton l button).1 ∨ (s.checkButton l button).1 = s.toggle := by
  by_cases heq : button = l.lastButton
  · rw [checkButton_of_eq s heq]
    exact .inl ⟨rfl, rfl, rfl, rfl⟩
  · by_cases hlow : l.debounce < 5
    · rw [checkButton_of_low s heq hlow]
      exact .inl ⟨rfl, rfl, rfl, rfl⟩
    · rw [checkButton_of_high s heq (Nat.not_lt.mp hlow)]
      cases button with
      | true => exact .inl ⟨rfl, rfl, rfl, rfl⟩
      | false => exact .inr rfl

/-! The two copies agree whatever happens. -/

theorem Synced.checkButton {s : System} (h : Synced s) (l : Locals) (button : Bool) :
    Synced (s.checkButton l button).1 := by
  rcases checkButton_relay s l button with hflags | htoggle
  · exact h.of_same hflags.stored hflags.relayState
  · rw [htoggle]
    rfl

theorem Synced.iterate {s : System} (h : Synced s) (button : Bool) (currentTime : Int) :
    Synced (s.iterate button currentTime) := by
  by_cases hlooping : ∃ l, s.phase = .looping l
  · obtain ⟨l, hphase⟩ := hlooping
    rcases iterate_cases hphase button currentTime with ⟨-, hstored, hstate⟩ | ⟨hflags, -⟩
    · rw [Synced, hstored, hstate]
    · exact (h.checkButton l button).of_same hflags.stored hflags.relayState
  · rw [iterate_of_not_looping (not_exists.mp hlooping)]
    exact h

theorem Synced.disconnect {s : System} (h : Synced s) : Synced s.disconnect := by
  rw [System.disconnect]
  dsimp only
  split
  · rfl
  · exact h

theorem Synced.execute {s : System} (h : Synced s) (action : Bytes) : Synced (s.execute action) := by
  rw [System.execute]
  split
  · exact h
  · split
    · exact h
    · split <;> exact h

theorem Synced.setGwStatus {s : System} (h : Synced s) (version : Bytes) (reply : Reply) :
    Synced (s.setGwStatus version reply) := by
  have hasked : Synced (s.emit (.request (s.resource version))) := h
  rw [setGwStatus.eq_def]
  split
  · exact h
  · cases reply with
    | noToken => exact h.disconnect
    | failed => exact hasked.disconnect
    | noAction => exact hasked
    | action action => exact hasked.execute action

theorem Synced.step {s : System} (h : Synced s) (event : Event) :
    Synced (Camcontrol.step s event) := by
  have hclear : Synced s.clearCalls := h
  cases event with
  | bootFailed =>
    rw [Camcontrol.step]
    split
    · rfl
    · exact hclear
  | start startTime rebootMinute =>
    rw [Camcontrol.step, System.start]
    split <;> exact hclear
  | enterLoop =>
    rw [Camcontrol.step, enterLoop]
    split <;> exact hclear
  | iterate button currentTime => exact hclear.iterate button currentTime
  | reply version reply => exact hclear.setGwStatus version reply
  | reboot =>
    rw [Camcontrol.step]
    split
    · rfl
    · exact hclear

/-! The flag follows them, unless the gateway changes it. -/

theorem RelayKept.iterate {s : System} (h : RelayKept s) (hsync : Synced s) (button : Bool)
    (currentTime : Int) : RelayKept (s.iterate button currentTime) := by
  by_cases hlooping : ∃ l, s.phase = .looping l
  · obtain ⟨l, hphase⟩ := hlooping
    have hsame := ((relayKept_iff_of_synced hsync).mp h) (by rw [hphase]; nofun)
    have hcheck : (s.checkButton l button).1.relayState =
        (s.checkButton l button).1.cameraRelayOn := by
      rcases checkButton_relay s l button with hflags | htoggle
      · rw [hflags.relayState, hflags.cameraRelayOn, hsame]
      · rw [htoggle]
        rfl
    rcases iterate_cases hphase button currentTime with ⟨hboot, -, -⟩ | ⟨hflags, -⟩
    · exact relayKept_of_booting hboot
    · apply relayKept_of_same (hsync.iterate button currentTime)
      rw [hflags.relayState, hflags.cameraRelayOn, hcheck]
  · rw [iterate_of_not_looping (not_exists.mp hlooping)]
    exact h

theorem RelayKept.disconnect {s : System} (h : RelayKept s) : RelayKept s.disconnect := by
  rw [System.disconnect]
  dsimp only
  split
  · exact relayKept_of_booting rfl
  · exact h

/-- An action of the gateway is not written to the flash. -/
theorem relayKept_execute_iff {s : System} (h : RelayKept s) (hsync : Synced s) (action : Bytes) :
    RelayKept (s.execute action) ↔ (s.phase ≠ .booting →
      (action = str "on" → s.cameraRelayOn = true) ∧
        (action = str "off" → s.cameraRelayOn = false)) := by
  have hsame := (relayKept_iff_of_synced hsync).mp h
  rw [relayKept_iff_of_synced (hsync.execute action), execute]
  by_cases hon : action = str "on"
  · have hoff : action ≠ str "off" := by rw [hon]; decide
    rw [if_pos hon]
    refine forall_congr' fun hphase => ?_
    show s.relayState = true ↔ _
    rw [hsame hphase, imp_iff_right hon, and_iff_left fun h => absurd h hoff]
  · rw [if_neg hon]
    by_cases hoff : action = str "off"
    · rw [if_pos hoff]
      refine forall_congr' fun hphase => ?_
      show s.relayState = false ↔ _
      rw [hsame hphase, imp_iff_right hoff, and_iff_right fun h => absurd h hon]
    · rw [if_neg hoff]
      have hnothing : (action = str "on" → s.cameraRelayOn = true) ∧
          (action = str "off" → s.cameraRelayOn = false) :=
        ⟨fun h => absurd h hon, fun h => absurd h hoff⟩
      split
      · exact iff_of_true hsame fun _ => hnothing
      · exact iff_of_true hsame fun _ => hnothing

theorem relayKept_setGwStatus_iff {s : System} (h : RelayKept s) (hsync : Synced s)
    (version : Bytes) (reply : Reply) :
    RelayKept (s.setGwStatus version reply) ↔ NothingToDo s (.reply version reply) := by
  have hasked : RelayKept (s.emit (.request (s.resource version))) := h
  rw [setGwStatus.eq_def]
  cases hrebooting : s.rebooting with
  | true =>
    refine iff_of_true h ?_
    cases reply with
    | action action =>
      intro _ hnot
      rw [hrebooting] at hnot
      cases hnot
    | _ => trivial
  | false =>
    cases reply with
    | noToken => exact iff_of_true h.disconnect trivial
    | failed => exact iff_of_true hasked.disconnect trivial
    | noAction => exact iff_of_true hasked trivial
    | action action =>
      refine (relayKept_execute_iff hasked hsync action).trans (forall_congr' fun _ => ?_)
      rw [imp_iff_right hrebooting]
      rfl

/-- **One step** keeps the relay state exactly if the gateway asks for nothing
    new. -/
theorem relayKept_step_iff {s : System} (h : RelayKept s) (hsync : Synced s) (event : Event) :
    RelayKept (step s event) ↔ NothingToDo s event := by
  have hclear : RelayKept s.clearCalls := h
  have hsame := (relayKept_iff_of_synced (s := s.clearCalls) hsync).mp hclear
  cases event with
  | bootFailed =>
    refine iff_of_true ?_ trivial
    rw [step]
    split
    · exact relayKept_of_booting rfl
    · exact hclear
  | start startTime rebootMinute =>
    refine iff_of_true ?_ trivial
    rw [step, System.start]
    split
    · exact relayKept_of_same hsync rfl
    · exact hclear
  | enterLoop =>
    refine iff_of_true ?_ trivial
    rw [step, enterLoop]
    split
    next startTime rebootMinute hphase =>
      exact relayKept_of_same hsync (hsame (by rw [hphase]; nofun))
    · exact hclear
  | iterate button currentTime => exact iff_of_true (hclear.iterate hsync button currentTime) trivial
  | reply version reply => exact relayKept_setGwStatus_iff hclear hsync version reply
  | reboot =>
    refine iff_of_true ?_ trivial
    rw [step]
    split
    · exact relayKept_of_booting rfl
    · exact hclear

end System

theorem synced_run (stored : Option Bool) (events : List Event) :
    System.Synced (run stored events) :=
  exec_invariant_of_forall step (fun _ => True) System.Synced (fun _ event h _ => h.step event)
    (s := powerOn stored) rfl fun _ _ => trivial

/-- **When the relay state survives restarts**, whatever the flash holds at first. -/
theorem relayKept_iff (stored : Option Bool) (events : List Event) :
    (∀ pre, pre <+: events → System.RelayKept (run stored pre)) ↔
      Along step System.NothingToDo (powerOn stored) events := by
  have hstart : System.Synced (powerOn stored) ∧ System.RelayKept (powerOn stored) :=
    ⟨rfl, System.relayKept_of_booting rfl⟩
  rw [along_iff_prefixes step System.NothingToDo
    (fun s => System.Synced s ∧ System.RelayKept s) ?_ hstart]
  · exact forall₂_congr fun pre _ => (and_iff_right (synced_run stored pre)).symm
  · rintro s event ⟨hsync, hkept⟩
    rw [and_iff_right (hsync.step event)]
    exact System.relayKept_step_iff hkept hsync event

/-- The gateway switches the cameras on. -/
def switchedOn : List Event :=
  [.start 1700000000 25, .enterLoop, .reply (str "1.0") (.action (str "on"))]

theorem not_relayKept : ¬ ∀ stored events pre, pre <+: events →
    System.RelayKept (run stored pre) := by
  intro h
  have hkept := (h none switchedOn switchedOn List.prefix_rfl (by decide)).1
  exact absurd hkept (by decide)

end Acs.Camcontrol
