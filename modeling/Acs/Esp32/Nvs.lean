/-
  Acs/Esp32/Nvs.lean
  ==================
  **Settings in non-volatile storage** (`nvs.cpp`, and the console commands of
  `console.cpp` that write them).

  A setting is stored as a string by a console command or a remote action, and
  read into a buffer of fixed size at boot; until then the getters give what the
  last boot has read.  `nvs_get_str` gives nothing when the buffer cannot hold
  the string with its NUL.  The console hands over parsed arguments, `none` when
  `arg_parse` has found errors.
-/
import Acs.Bytes
import Acs.Lib.Run

namespace Acs.Esp32

open Acs

/-- A text without NUL, as a `const char*` shows it. -/
abbrev CString := { s : Bytes // 0 ∉ s }

namespace CString

def ofBytes (s : Bytes) : CString :=
  ⟨cstr s, fun h => absurd (List.mem_takeWhile_imp h) (by simp)⟩

end CString

/-! ### The storage -/

namespace Nvs

/-- `IDENTIFIER_KEY`, `WIFI_KEY`, `MQTT_ADDRESS_KEY` and `ACS_TOKEN_KEY`. -/
inductive Key where
  | identifier
  | wifi
  | mqttAddress
  | acsToken
deriving DecidableEq, Repr

inductive Error where
  | notFound
  | invalidLength
deriving DecidableEq, Repr

end Nvs

/-- The strings stored in flash, and the static variables of `nvs.cpp` that a
    boot fills. -/
structure Nvs where
  stored : Nvs.Key → Option CString
  mqttAddress : Bytes := []
  identifier : Bytes := []
  acsToken : Bytes := []
  wifiCreds : List (Bytes × Bytes) := []

namespace Nvs

/-- `nvs_get_str` into a buffer of `size` bytes. -/
def nvsGetStr (n : Nvs) (key : Key) (size : Nat) : Except Error Bytes :=
  match n.stored key with
  | none => .error .notFound
  | some s => if s.1.length + 1 ≤ size then .ok s.1 else .error .invalidLength

def nvsSetStr (n : Nvs) (key : Key) (s : CString) : Nvs :=
  { n with stored := Function.update n.stored key (some s) }

/-- `get_nvs_string`: what is read into the buffer, if it returns `true`. -/
def getNvsString (n : Nvs) (key : Key) (size : Nat) : Option Bytes :=
  match n.nvsGetStr key size with
  | .ok s => some s
  | .error _ => none

theorem getNvsString_of_stored {n : Nvs} {key : Key} {s : CString} (h : n.stored key = some s)
    (size : Nat) :
    n.getNvsString key size = if s.1.length + 1 ≤ size then some s.1 else none := by
  rw [getNvsString, nvsGetStr, h]
  by_cases hfits : s.1.length + 1 ≤ size <;> simp [hfits]

/-! ### Setters and getters -/

def setMqttAddress (n : Nvs) (address : CString) : Nvs := n.nvsSetStr .mqttAddress address
def setIdentifier (n : Nvs) (identifier : CString) : Nvs := n.nvsSetStr .identifier identifier
def setAcsToken (n : Nvs) (token : CString) : Nvs := n.nvsSetStr .acsToken token

def clearWifiCredentials (n : Nvs) : Nvs :=
  { n.nvsSetStr .wifi (.ofBytes []) with wifiCreds := [] }

def addWifiCredentials (n : Nvs) (ssid password : CString) : Nvs :=
  let creds := match n.nvsGetStr .wifi 256 with
    | .ok buf => buf
    | .error _ => []
  let creds := creds ++ (ssid.1 ++ str ":" ++ password.1 ++ str ":")
  n.nvsSetStr .wifi (.ofBytes creds)

def unsetIdentifier : Bytes := str "[device identifier not set]"

def getMqttAddress (n : Nvs) : Bytes := n.mqttAddress
def getAcsToken (n : Nvs) : Bytes := n.acsToken
def getIdentifier (n : Nvs) : Bytes := if n.identifier ≠ [] then n.identifier else unsetIdentifier
def getWifiCreds (n : Nvs) : List (Bytes × Bytes) := n.wifiCreds

/-! ### Boot -/

/-- One turn of the loop in `parse_wifi_credentials`, on `is_ssid`, `ssid` and `v`. -/
def parseToken (acc : Bool × Bytes × List (Bytes × Bytes)) (token : Bytes) :
    Bool × Bytes × List (Bytes × Bytes) :=
  let (isSsid, ssid, v) := acc
  if isSsid then (!isSsid, token, v) else (!isSsid, ssid, v ++ [(ssid, token)])

/-- The loop takes the tokens that `strsep` cuts off at each `:`. -/
def parseWifiCredentials (buf : Bytes) : List (Bytes × Bytes) :=
  ((buf.splitOn 58).foldl parseToken (true, [], [])).2.2

def defaultMqttAddress : Bytes := str "imqtt.hal9k.dk"

def initNvs (n : Nvs) : Nvs :=
  let n := { n with identifier := (n.getNvsString .identifier 20).getD [] }
  let n := match n.getNvsString .wifi 256 with
    | some buf => { n with wifiCreds := parseWifiCredentials buf }
    | none => n
  let n := { n with mqttAddress := (n.getNvsString .mqttAddress 80).getD defaultMqttAddress }
  { n with acsToken := (n.getNvsString .acsToken 80).getD [] }

/-- A reboot: the static variables are zero again, and then `init_nvs` runs. -/
def reboot (n : Nvs) : Nvs := initNvs { stored := n.stored }

section Reboot

variable (n : Nvs)

@[simp] theorem reboot_stored : n.reboot.stored = n.stored := by
  rw [reboot, initNvs]
  dsimp only
  split <;> rfl

theorem reboot_identifier : n.reboot.identifier = (n.getNvsString .identifier 20).getD [] := by
  rw [reboot, initNvs]
  dsimp only
  split <;> rfl

theorem reboot_mqttAddress :
    n.reboot.mqttAddress = (n.getNvsString .mqttAddress 80).getD defaultMqttAddress := by
  rw [reboot, initNvs]
  dsimp only
  split <;> rfl

theorem reboot_acsToken : n.reboot.acsToken = (n.getNvsString .acsToken 80).getD [] := by
  rw [reboot, initNvs]
  dsimp only
  split <;> rfl

theorem reboot_wifiCreds :
    n.reboot.wifiCreds = ((n.getNvsString .wifi 256).map parseWifiCredentials).getD [] := by
  rw [reboot, initNvs]
  dsimp only
  have hread : ({ stored := n.stored, identifier := (({ stored := n.stored } : Nvs).getNvsString
      .identifier 20).getD [] } : Nvs).getNvsString .wifi 256 = n.getNvsString .wifi 256 := rfl
  rw [hread]
  cases n.getNvsString .wifi 256 <;> rfl

end Reboot

/-! ### Console commands -/

/-- What a command prints, or `none` for the messages of `arg_print_errors`, its
    return code, and the settings after it. -/
structure Done where
  printed : Option Bytes
  code : Nat
  nvs : Nvs

def argErrors (n : Nvs) : Done := { printed := none, code := 1, nvs := n }

def refused (n : Nvs) (message : String) : Done :=
  { printed := some (str message), code := 1, nvs := n }

/-- `add_wifi_creds`; a password that is not given reads as the empty one. -/
def addWifiCreds (n : Nvs) : Option (CString × Option CString) → Done
  | none => argErrors n
  | some (ssid, password) =>
    let password := password.getD (.ofBytes [])
    if ssid.1.length < 1 then refused n "ERROR: Invalid SSID value\n"
    else
      { printed := some (str "OK: Added WiFi credentials " ++ ssid.1 ++ str "/" ++ password.1 ++
          str "\n"),
        code := 0, nvs := n.addWifiCredentials ssid password }

def clearWifiCredentialsCmd (n : Nvs) : Done :=
  { printed := some (str "OK: WiFi credentials cleared\n"), code := 0,
    nvs := n.clearWifiCredentials }

/-- The common body of the three commands below: a check of the length, then the
    setter. -/
def setCmd (minLength : Nat) (error ok : String) (set : Nvs → CString → Nvs) (n : Nvs) :
    Option CString → Done
  | none => argErrors n
  | some value =>
    if value.1.length < minLength then refused n error
    else { printed := some (str ok ++ value.1 ++ str "\n"), code := 0, nvs := set n value }

def setIdentifierCmd : Nvs → Option CString → Done :=
  setCmd 2 "ERROR: Invalid identifier\n" "OK: Identifier set to " setIdentifier

def setAcsCredentials : Nvs → Option CString → Done :=
  setCmd 32 "ERROR: Invalid token\n" "OK: ACS token set to " setAcsToken

/-- `set_mqtt_params` takes any address. -/
def setMqttParams : Nvs → Option CString → Done :=
  setCmd 0 "" "OK: MQTT address set to " setMqttAddress

/-! ### Runs -/

inductive Event where
  | wifi (args : Option (CString × Option CString))
  | clearwifi
  | ident (args : Option CString)
  | acs (args : Option CString)
  | mqtt (args : Option CString)
  | setacstoken (arg : CString)
  | reboot
deriving DecidableEq

/-- A remote `setacstoken` does not check its argument. -/
def step (n : Nvs) : Event → Nvs
  | .wifi args => (n.addWifiCreds args).nvs
  | .clearwifi => n.clearWifiCredentialsCmd.nvs
  | .ident args => (n.setIdentifierCmd args).nvs
  | .acs args => (n.setAcsCredentials args).nvs
  | .mqtt args => (n.setMqttParams args).nvs
  | .setacstoken arg => n.setAcsToken arg
  | .reboot => n.reboot

def run (n : Nvs) (events : List Event) : Nvs := Runs.exec step n events

/-! ### Settings across a reboot -/

inductive Setting where
  | identifier
  | acsToken
  | mqttAddress
deriving DecidableEq, Repr

def Setting.key : Setting → Key
  | .identifier => .identifier
  | .acsToken => .acsToken
  | .mqttAddress => .mqttAddress

/-- The size of the static buffer. -/
def Setting.size : Setting → Nat
  | .identifier => 20
  | .acsToken => 80
  | .mqttAddress => 80

def get (n : Nvs) : Setting → Bytes
  | .identifier => n.getIdentifier
  | .acsToken => n.getAcsToken
  | .mqttAddress => n.getMqttAddress

/-- The value that a command has confirmed with `OK`, or a remote action set. -/
def confirmed (n : Nvs) : Event → List (Setting × CString)
  | .ident (some value) =>
    if (n.setIdentifierCmd (some value)).code = 0 then [(.identifier, value)] else []
  | .acs (some value) =>
    if (n.setAcsCredentials (some value)).code = 0 then [(.acsToken, value)] else []
  | .mqtt (some value) =>
    if (n.setMqttParams (some value)).code = 0 then [(.mqttAddress, value)] else []
  | .setacstoken value => [(.acsToken, value)]
  | _ => []

/-- The value confirmed last for a setting. -/
def lastConfirmed (n : Nvs) (events : List Event) (setting : Setting) : Option CString :=
  (((Runs.emitted step confirmed n events).filter (·.1 = setting)).getLast?).map (·.2)

/-- What a list of confirmations has done to the storage. -/
def Stores (n n' : Nvs) (setting : Setting) (confirmations : List (Setting × CString)) : Prop :=
  confirmations.filter (·.1 = setting) = [] ∧
      n'.stored setting.key = n.stored setting.key ∨
    ∃ value, confirmations.filter (·.1 = setting) = [(setting, value)] ∧
      n'.stored setting.key = some value

section Stores

variable {n n' : Nvs} {setting : Setting}

theorem Stores.unchanged (h : n'.stored setting.key = n.stored setting.key) :
    Stores n n' setting [] :=
  .inl ⟨rfl, h⟩

theorem Setting.key_injective : Function.Injective Setting.key := by
  intro a b h
  cases a <;> cases b <;> first | rfl | exact absurd h (by decide)

theorem stores_set (s : Setting) (value : CString) :
    Stores n (n.nvsSetStr s.key value) setting [(s, value)] := by
  by_cases hs : s = setting
  · rw [hs]
    exact .inr ⟨value, by simp, by simp [nvsSetStr]⟩
  · refine .inl ⟨by simp [hs], ?_⟩
    have hkey : setting.key ≠ s.key := fun h => hs (Setting.key_injective h).symm
    simp [nvsSetStr, hkey]

theorem stores_setCmd (s : Setting) (minLength : Nat) (error ok : String) (value : CString) :
    Stores n (setCmd minLength error ok (fun n => n.nvsSetStr s.key) n (some value)).nvs setting
      (if (setCmd minLength error ok (fun n => n.nvsSetStr s.key) n (some value)).code = 0 then
        [(s, value)] else []) := by
  rw [setCmd]
  split
  · exact .unchanged rfl
  · exact stores_set s value

theorem stored_wifi_ne (setting : Setting) (s : CString) :
    (n.nvsSetStr .wifi s).stored setting.key = n.stored setting.key := by
  cases setting <;> simp [nvsSetStr, Setting.key]

end Stores

theorem stores_step (n : Nvs) (e : Event) (setting : Setting) :
    Stores n (n.step e) setting (confirmed n e) := by
  cases e with
  | wifi args =>
    cases args with
    | none => exact .unchanged rfl
    | some args =>
      apply Stores.unchanged
      obtain ⟨ssid, password⟩ := args
      rw [step, addWifiCreds]
      split
      · rfl
      · exact stored_wifi_ne setting _
  | clearwifi => exact .unchanged (stored_wifi_ne setting _)
  | ident args =>
    cases args with
    | none => exact .unchanged rfl
    | some value => exact stores_setCmd .identifier 2 _ _ value
  | acs args =>
    cases args with
    | none => exact .unchanged rfl
    | some value => exact stores_setCmd .acsToken 32 _ _ value
  | mqtt args =>
    cases args with
    | none => exact .unchanged rfl
    | some value => exact stores_setCmd .mqttAddress 0 _ _ value
  | setacstoken value => exact stores_set .acsToken value
  | reboot => exact .unchanged (by rw [step, reboot_stored])

/-- No empty identifier is confirmed. -/
theorem confirmed_identifier {n : Nvs} {e : Event} {value : CString}
    (h : (Setting.identifier, value) ∈ confirmed n e) : value.1 ≠ [] := by
  rw [confirmed.eq_def] at h
  split at h
  next confirmedValue =>
    split at h
    next hcode =>
      obtain ⟨_, rfl⟩ := Prod.mk.inj (List.mem_singleton.mp h)
      intro hnil
      rw [setIdentifierCmd, setCmd, if_pos (by rw [hnil]; decide)] at hcode
      exact absurd hcode (by simp [refused])
    next => exact absurd h List.not_mem_nil
  next => split at h <;> simp at h
  next => split at h <;> simp at h
  next => simp at h
  next => exact absurd h List.not_mem_nil

/-- The storage has the last of the confirmed values, and no identifier among them
    is empty. -/
structure Kept (n : Nvs) (confirmations : List (Setting × CString)) : Prop where
  stored : ∀ setting value,
    ((confirmations.filter (·.1 = setting)).getLast?).map (·.2) = some value →
      n.stored setting.key = some value
  identifier : ∀ value, (Setting.identifier, value) ∈ confirmations → value.1 ≠ []

theorem kept_step {n : Nvs} {confirmations : List (Setting × CString)} (h : Kept n confirmations)
    (e : Event) : Kept (n.step e) (confirmations ++ confirmed n e) := by
  constructor
  · intro setting value hlast
    rw [List.filter_append] at hlast
    rcases stores_step n e setting with ⟨hnone, hsame⟩ | ⟨value', hvalue, hstored⟩
    · rw [hnone, List.append_nil] at hlast
      rw [hsame]
      exact h.stored setting value hlast
    · rw [hvalue, List.getLast?_concat] at hlast
      rw [hstored]
      exact hlast
  · intro value hmem
    rcases List.mem_append.mp hmem with hmem | hmem
    · exact h.identifier value hmem
    · exact confirmed_identifier hmem

/-- **What was confirmed last is what is stored.** -/
theorem kept_run (n : Nvs) (events : List Event) :
    Kept (run n events) (Runs.emitted step confirmed n events) := by
  have halong : Runs.Along step (fun _ _ => True) n events :=
    Runs.along_of_forall step fun _ _ => trivial
  have hinv : Kept (run n events) ([] ++ Runs.emitted step confirmed n events) :=
    Runs.emitted_invariant step confirmed (fun _ _ => True) Kept
      (fun n cs e h _ => kept_step h e) ⟨by simp, by simp⟩ halong
  exact hinv

/-- The text fits its buffer, or it is the one that stands for no identifier. -/
def Restorable (setting : Setting) (value : CString) : Prop :=
  value.1.length < setting.size ∨ setting = .identifier ∧ value.1 = unsetIdentifier

/-- A short default does not stand in for a text that is too long. -/
theorem getD_eq_iff {n : Nvs} {key : Key} {value : CString} (hstored : n.stored key = some value)
    (size : Nat) {default : Bytes} (hdefault : default.length < size) :
    (n.getNvsString key size).getD default = value.1 ↔ value.1.length < size := by
  rw [getNvsString_of_stored hstored]
  constructor
  · intro h
    split at h
    · omega
    · rwa [← h]
  · intro h
    rw [if_pos (by omega)]
    rfl

/-- **A confirmed setting survives a reboot exactly when it fits its buffer.** -/
theorem restored_iff (n : Nvs) (events : List Event) (setting : Setting) (value : CString)
    (h : lastConfirmed n events setting = some value) :
    (run n (events ++ [.reboot])).get setting = value.1 ↔ Restorable setting value := by
  have hkept := kept_run n events
  have hstored := hkept.stored setting value h
  rw [run, Runs.exec_snoc, ← run, step]
  cases setting with
  | identifier =>
    have hne : value.1 ≠ [] := by
      obtain ⟨⟨_, _⟩, hlast, rfl⟩ := Option.map_eq_some_iff.mp h
      obtain ⟨hmem, hfirst⟩ := List.mem_filter.mp (List.mem_of_getLast? hlast)
      obtain rfl := of_decide_eq_true hfirst
      exact hkept.identifier _ hmem
    have hread := getNvsString_of_stored hstored 20
    rw [Setting.key] at hread
    rw [get, getIdentifier, reboot_identifier, hread, Restorable, Setting.size]
    by_cases hfits : value.1.length < 20
    · rw [if_pos (Nat.succ_le_of_lt hfits), Option.getD_some, if_pos hne]
      exact iff_of_true rfl (.inl hfits)
    · rw [if_neg (mt Nat.lt_of_succ_le hfits), Option.getD_none, if_neg (not_not.mpr rfl)]
      constructor
      · intro hunset
        exact .inr ⟨rfl, hunset.symm⟩
      · rintro (hlt | ⟨_, hunset⟩)
        · exact absurd hlt hfits
        · exact hunset.symm
  | acsToken =>
    rw [get, getAcsToken, reboot_acsToken]
    have hnone : ([] : Bytes).length < 80 := by decide
    have hread := getD_eq_iff hstored 80 hnone
    simpa [Restorable, Setting.size, Setting.key] using hread
  | mqttAddress =>
    rw [get, getMqttAddress, reboot_mqttAddress]
    have hdefault : defaultMqttAddress.length < 80 := by decide
    have hread := getD_eq_iff hstored 80 hdefault
    simpa [Restorable, Setting.size, Setting.key] using hread

/-- A new device. -/
def blank : Nvs := { stored := fun _ => none }

def sampleIdentifier : CString := ⟨str "workshop", by decide⟩

theorem restored_iff_sample :
    (run blank [.ident (some sampleIdentifier), .reboot]).get .identifier = str "workshop" :=
  (restored_iff blank [.ident (some sampleIdentifier)] .identifier sampleIdentifier (by decide)).mpr
    (.inl (by decide))

/-- One byte more than the buffer of the identifier holds. -/
def longIdentifier : CString := ⟨str "frontend-of-woodshop", by decide⟩

theorem not_restored :
    ¬ ∀ (n : Nvs) (events : List Event) (setting : Setting) (value : CString),
      lastConfirmed n events setting = some value →
        (run n (events ++ [.reboot])).get setting = value.1 := by
  intro h
  have hread := h blank [.ident (some longIdentifier)] .identifier longIdentifier (by decide)
  exact absurd hread (by decide)

end Nvs

end Acs.Esp32
