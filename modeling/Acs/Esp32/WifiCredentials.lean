/-
  Acs/Esp32/WifiCredentials.lean
  ==============================
  **The list of WiFi networks across a reboot.**

  The list is stored as one text, `ssid:password:` for each network, which a new
  network is appended to.  It is read back through a buffer of 256 bytes, both
  by `init_nvs` and by `add_wifi_credentials`, and the latter starts afresh when
  the buffer is too small.  So the text that is stored is that of some of the
  networks added last (`text_added`), and all of them come back when the text
  of all fits and no name or password has a `:` in it.
-/
import Acs.Esp32.Nvs

namespace Acs.Esp32

open Acs

namespace Nvs

/-- A network: `ssid` and `password`. -/
abbrev Network := Bytes × Bytes

/-! ### The text of a list -/

def entry (p : Network) : Bytes := p.1 ++ str ":" ++ p.2 ++ str ":"

def text (networks : List Network) : Bytes := networks.flatMap entry

/-- Neither the name nor the password has a separator in it. -/
def Plain (p : Network) : Prop := 58 ∉ p.1 ∧ 58 ∉ p.2

instance (p : Network) : Decidable (Plain p) := inferInstanceAs (Decidable (_ ∧ _))

theorem splitOn_entry {p : Network} (h : Plain p) (rest : Bytes) :
    (entry p ++ rest).splitOn 58 = p.1 :: p.2 :: rest.splitOn 58 := by
  have hentry : entry p ++ rest = p.1 ++ 58 :: (p.2 ++ 58 :: rest) := by
    simp [entry, show str ":" = [58] from rfl]
  rw [hentry, List.splitOn_append_cons_self_of_not_mem h.1,
    List.splitOn_append_cons_self_of_not_mem h.2]

theorem splitOn_text {networks : List Network} (h : ∀ p ∈ networks, Plain p) :
    (text networks).splitOn 58 = networks.flatMap (fun p => [p.1, p.2]) ++ [[]] := by
  induction networks with
  | nil => rfl
  | cons p networks ih =>
    rw [List.forall_mem_cons] at h
    have hsplit := splitOn_entry h.1 (text networks)
    rw [text, List.flatMap_cons, ← text, hsplit, ih h.2]
    rfl

theorem foldl_parseToken (networks : List Network) (ssid : Bytes) (v : List Network) :
    ∃ last, (networks.flatMap fun p => [p.1, p.2]).foldl parseToken (true, ssid, v) =
      (true, last, v ++ networks) := by
  induction networks generalizing ssid v with
  | nil => exact ⟨ssid, by simp⟩
  | cons p networks ih =>
    obtain ⟨last, hlast⟩ := ih p.1 (v ++ [(p.1, p.2)])
    refine ⟨last, ?_⟩
    rw [List.flatMap_cons, List.foldl_append]
    exact hlast.trans (by rw [List.append_assoc]; rfl)

/-- **The text of a list without separators reads back as the list.** -/
theorem parse_text {networks : List Network} (h : ∀ p ∈ networks, Plain p) :
    parseWifiCredentials (text networks) = networks := by
  obtain ⟨last, hlast⟩ := foldl_parseToken networks [] []
  rw [parseWifiCredentials, splitOn_text h, List.foldl_append, hlast]
  rfl

theorem not_mem_of_mem_splitOn {s token : Bytes} (h : token ∈ s.splitOn 58) : 58 ∉ token := by
  induction s generalizing token with
  | nil =>
    rw [List.splitOn_nil, List.mem_singleton] at h
    simp [h]
  | cons b s ih =>
    rw [List.splitOn_cons_eq_if_modifyHead] at h
    split at h
    next =>
      rcases List.mem_cons.mp h with rfl | h
      · exact List.not_mem_nil
      · exact ih h
    next hb =>
      cases hs : s.splitOn 58 with
      | nil => exact absurd hs (List.splitOn_ne_nil 58 s)
      | cons first rest =>
        rw [hs, List.modifyHead_cons] at h
        have hmem : ∀ t ∈ first :: rest, 58 ∉ t := by
          intro t ht
          exact ih (hs ▸ ht)
        rcases List.mem_cons.mp h with rfl | h
        · have hne : (58 : UInt8) ≠ b := by
            rintro rfl
            exact hb (by decide)
          simp [hne, hmem first List.mem_cons_self]
        · exact hmem token (List.mem_cons_of_mem _ h)

/-- What is read back never has a separator in it. -/
theorem plain_of_mem_parse {buf : Bytes} {p : Network} (h : p ∈ parseWifiCredentials buf) :
    Plain p := by
  have hloop : ∀ (tokens : List Bytes) (acc : Bool × Bytes × List Network),
      (∀ t ∈ tokens, 58 ∉ t) → 58 ∉ acc.2.1 → (∀ q ∈ acc.2.2, Plain q) →
        ∀ q ∈ (tokens.foldl parseToken acc).2.2, Plain q := by
    intro tokens
    induction tokens with
    | nil => exact fun _ _ _ hv => hv
    | cons token tokens ih =>
      rintro ⟨isSsid, ssid, v⟩ htokens hssid hv
      rw [List.forall_mem_cons] at htokens
      cases isSsid with
      | true => exact ih (false, token, v) htokens.2 htokens.1 hv
      | false =>
        apply ih (true, ssid, v ++ [(ssid, token)]) htokens.2 hssid
        intro q hq
        rcases List.mem_append.mp hq with hq | hq
        · exact hv q hq
        · rw [List.mem_singleton.mp hq]
          exact ⟨hssid, htokens.1⟩
  exact hloop _ (true, [], []) (fun _ => not_mem_of_mem_splitOn) (by simp) (by simp) p h

/-! ### What is stored -/

/-- The network that a command has confirmed with `OK`. -/
def addedBy (n : Nvs) : Event → List Network
  | .wifi (some (ssid, password)) =>
    if (n.addWifiCreds (some (ssid, password))).code = 0 then
      [(ssid.1, (password.map (·.1)).getD [])] else []
  | _ => []

/-- The networks that a run adds. -/
def added (n : Nvs) (events : List Event) : List Network := Runs.emitted step addedBy n events

/-- The text that is stored is that of the networks added last; some are missing
    only after the text of all has outgrown the buffer. -/
def Follows (n : Nvs) (networks : List Network) : Prop :=
  ∃ dropped kept s, networks = dropped ++ kept ∧ n.stored .wifi = some s ∧ s.1 = text kept ∧
    (dropped = [] ∨ 256 ≤ (text networks).length)

theorem text_append (networks more : List Network) :
    text (networks ++ more) = text networks ++ text more := by
  simp [text]

theorem text_singleton (p : Network) : text [p] = entry p := by
  simp [text]

/-- The new network is appended to the text, or to nothing when the buffer is too
    small. -/
theorem stored_addWifiCredentials {n : Nvs} {s : CString} (hs : n.stored .wifi = some s)
    (ssid password : CString) :
    ∃ t, (n.addWifiCredentials ssid password).stored .wifi = some t ∧
      t.1 = (if s.1.length < 256 then s.1 else []) ++ entry (ssid.1, password.1) := by
  have hread : n.nvsGetStr .wifi 256 =
      if s.1.length < 256 then .ok s.1 else .error .invalidLength := by
    rw [nvsGetStr, hs]
    exact if_congr Nat.succ_le_iff rfl rfl
  have hentry : 0 ∉ entry (ssid.1, password.1) := by
    have hcolon : 0 ∉ str ":" := by decide
    simp only [entry, List.mem_append, not_or]
    exact ⟨⟨⟨ssid.2, hcolon⟩, password.2⟩, hcolon⟩
  have hclean : 0 ∉ (if s.1.length < 256 then s.1 else []) ++ entry (ssid.1, password.1) := by
    rw [List.mem_append, not_or]
    refine ⟨?_, hentry⟩
    split
    · exact s.2
    · exact List.not_mem_nil
  refine ⟨.ofBytes ((if s.1.length < 256 then s.1 else []) ++ entry (ssid.1, password.1)), ?_,
    cstr_eq_self hclean⟩
  simp only [addWifiCredentials, nvsSetStr, Function.update_self, hread, entry]
  by_cases hfits : s.1.length < 256 <;> simp [hfits]

theorem follows_addWifiCredentials {n : Nvs} {networks : List Network} (h : Follows n networks)
    (ssid password : CString) :
    Follows (n.addWifiCredentials ssid password) (networks ++ [(ssid.1, password.1)]) := by
  obtain ⟨dropped, kept, s, rfl, hs, htext, hfull⟩ := h
  obtain ⟨t, ht, hentry⟩ := stored_addWifiCredentials hs ssid password
  rw [htext] at hentry
  by_cases hfits : (text kept).length < 256
  · refine ⟨dropped, kept ++ [(ssid.1, password.1)], t, by rw [List.append_assoc], ht, ?_, ?_⟩
    · rw [hentry, if_pos hfits, text_append, text_singleton]
    · apply hfull.imp_right
      intro hlen
      rw [text_append, List.length_append]
      omega
  · refine ⟨dropped ++ kept, [(ssid.1, password.1)], t, rfl, ht, ?_, ?_⟩
    · rw [hentry, if_neg hfits, text_singleton]
      rfl
    · right
      simp only [text_append, List.length_append]
      omega

theorem follows_of_stored {n n' : Nvs} {networks : List Network} (h : Follows n networks)
    (hstored : n'.stored .wifi = n.stored .wifi) : Follows n' networks := by
  obtain ⟨dropped, kept, s, heq, hs, htext, hfull⟩ := h
  exact ⟨dropped, kept, s, heq, hstored.trans hs, htext, hfull⟩

theorem stored_setCmd (minLength : Nat) (error ok : String) (s : Setting) (n : Nvs)
    (value : Option CString) :
    (setCmd minLength error ok (fun n => n.nvsSetStr s.key) n value).nvs.stored .wifi =
      n.stored .wifi := by
  cases value with
  | none => rfl
  | some value =>
    rw [setCmd]
    split
    · rfl
    · cases s <;> simp [nvsSetStr, Setting.key]

theorem follows_step {n : Nvs} {networks : List Network} (h : Follows n networks) {e : Event}
    (he : e ≠ .clearwifi) : Follows (n.step e) (networks ++ addedBy n e) := by
  have hnone : ∀ {n'}, n'.stored .wifi = n.stored .wifi → Follows n' (networks ++ []) := by
    intro n' hstored
    rw [List.append_nil]
    exact follows_of_stored h hstored
  cases e with
  | wifi args =>
    rcases args with - | ⟨ssid, password⟩
    · exact hnone rfl
    rw [addedBy, step, addWifiCreds]
    by_cases hshort : ssid.1.length < 1
    · rw [if_pos hshort]
      exact hnone rfl
    · rw [if_neg hshort]
      have hadd := follows_addWifiCredentials h ssid (password.getD (.ofBytes []))
      cases password with
      | none => exact hadd
      | some password => exact hadd
  | clearwifi => exact absurd rfl he
  | ident args => exact hnone (stored_setCmd 2 _ _ .identifier n args)
  | acs args => exact hnone (stored_setCmd 32 _ _ .acsToken n args)
  | mqtt args => exact hnone (stored_setCmd 0 _ _ .mqttAddress n args)
  | setacstoken value => exact hnone (by simp [step, setAcsToken, nvsSetStr])
  | reboot => exact hnone (by rw [step, reboot_stored])

/-- **Along every run** that starts with an empty list. -/
theorem follows_run (n : Nvs) {events : List Event} (h : .clearwifi ∉ events) :
    Follows (run n.clearWifiCredentials events) (added n.clearWifiCredentials events) := by
  have hstart : Follows n.clearWifiCredentials [] :=
    ⟨[], [], .ofBytes [], rfl, by simp [clearWifiCredentials, nvsSetStr], rfl, .inl rfl⟩
  apply Runs.emitted_invariant step addedBy (fun _ e => e ≠ .clearwifi) Follows _ hstart
    (Runs.along_of_forall step _)
  · intro n' networks e hfollows he
    exact follows_step hfollows he
  · rintro e he rfl
    exact h he

/-! ### What is read back -/

/-- **The list comes back exactly when it fits the buffer and has no separators.** -/
theorem wifi_restored_iff (n : Nvs) (events : List Event) (h : .clearwifi ∉ events) :
    (run n (.clearwifi :: events ++ [.reboot])).getWifiCreds =
        added n.clearWifiCredentials events ↔
      (∀ p ∈ added n.clearWifiCredentials events, Plain p) ∧
        (text (added n.clearWifiCredentials events)).length < 256 := by
  obtain ⟨dropped, kept, s, hnetworks, hs, htext, hfull⟩ := follows_run n h
  have hread : (run n (.clearwifi :: events ++ [.reboot])).getWifiCreds =
      if (text kept).length < 256 then parseWifiCredentials (text kept) else [] := by
    have hboot : run n (.clearwifi :: events ++ [.reboot]) =
        (run n.clearWifiCredentials events).reboot := by
      rw [run, Runs.exec_snoc]
      rfl
    rw [hboot, getWifiCreds, reboot_wifiCreds, getNvsString_of_stored hs, htext]
    by_cases hfits : (text kept).length < 256 <;> simp [hfits, Nat.lt_iff_add_one_le.symm]
  rw [hread, hnetworks]
  constructor
  · intro hback
    have hlen : (text kept).length < 256 := by
      by_contra hlong
      rw [if_neg hlong] at hback
      obtain ⟨_, rfl⟩ := List.append_eq_nil_iff.mp hback.symm
      exact hlong (by decide)
    rw [if_pos hlen] at hback
    have hplain : ∀ p ∈ dropped ++ kept, Plain p := by
      intro p hp
      rw [← hback] at hp
      exact plain_of_mem_parse hp
    -- the networks that were kept read back as themselves, so there are no others
    rw [parse_text fun p hp => hplain p (List.mem_append_right _ hp)] at hback
    obtain rfl : dropped = [] := by simpa using hback
    exact ⟨hplain, hlen⟩
  · rintro ⟨hplain, hlen⟩
    rw [hnetworks] at hfull
    obtain rfl := hfull.resolve_right (by omega)
    rw [List.nil_append] at hplain hlen ⊢
    rw [if_pos hlen, parse_text hplain]

def sampleNetwork : CString × Option CString :=
  (⟨str "hal9k", by decide⟩, some ⟨str "secret", by decide⟩)

def openNetwork : CString × Option CString := (⟨str "guest", by decide⟩, none)

theorem wifi_restored_iff_sample :
    (run blank [.clearwifi, .wifi (some sampleNetwork), .wifi (some openNetwork), .reboot]).getWifiCreds
      = [(str "hal9k", str "secret"), (str "guest", [])] :=
  (wifi_restored_iff blank [.wifi (some sampleNetwork), .wifi (some openNetwork)] (by decide)).mpr
    ⟨by decide, by decide⟩

/-- A password with a separator. -/
def colonNetwork : CString × Option CString :=
  (⟨str "hal9k", by decide⟩, some ⟨str "a:b", by decide⟩)

theorem not_wifi_restored :
    ¬ ∀ (n : Nvs) (events : List Event), .clearwifi ∉ events →
      (run n (.clearwifi :: events ++ [.reboot])).getWifiCreds =
        added n.clearWifiCredentials events := by
  intro h
  have hread := h blank [.wifi (some colonNetwork)] (by decide)
  exact absurd hread (by decide)

end Nvs

end Acs.Esp32
