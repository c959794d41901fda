import Cmqtt.Config.Reading
import Cmqtt.Main.Settings

/-!
# Configuration text in fixed arrays

The text of a configuration file goes through arrays of fixed size: `tmpLine`
and `tmpstr` of `GetInitKey`, the arrays of the settings that are strings, and
`resstr` of `initTopicConf`. Nothing on the way looks at how long the text is.

*The settings.* A string setting should hold the value configured, if there is
one that fits, and its default otherwise (`StringSetting.expected`). It does, and
is terminated, exactly if the file exists and the value fits
(`stringSettings_iff`): a longer value fills its array without a NUL, and for a
missing file, the text of the error that `GetInitKey` returns is taken for the
value of all settings (`stringSettings_missing`).

*The parser.* The buffers are not left exactly if all lines the program gets to
fit `tmpLine`, and the values of the topics it looks at fit `resstr`
(`within_buffers_iff`).
-/

namespace Cmqtt

open GetInitKey

/-! ## The settings that are strings -/

/-- A setting that is a string: where it is configured, and its array. -/
structure StringSetting where
  title : CString
  key : CString
  array : Settings → List UInt8

/-- The settings that are strings. -/
def stringSettings : List StringSetting := [
  ⟨.lit "MQTT", .lit "MQTT_SVR_IP", Settings.mqttSvrIp⟩,
  ⟨.lit "MQTT", .lit "MQTT_CLIENTID", Settings.mqttClientId⟩,
  ⟨.lit "MQTT", .lit "MQTT_USERNAME", Settings.mqttUsername⟩,
  ⟨.lit "MQTT", .lit "MQTT_PWD", Settings.mqttPwd⟩,
  ⟨.lit "MYSQL", .lit "SERVERIP", Settings.mysqlServerip⟩,
  ⟨.lit "MYSQL", .lit "USERID", Settings.mysqlUserid⟩,
  ⟨.lit "MYSQL", .lit "PASSWD", Settings.mysqlPasswd⟩,
  ⟨.lit "MYSQL", .lit "DATABASE", Settings.mysqlDatabase⟩]

namespace StringSetting

/-- What a setting should be, given the content of the file if it exists: the value
    configured, if it is not empty and fits, or the default. -/
def expected (x : StringSetting) (file : Option (List UInt8)) : CString :=
  match file with
  | none => .ofBytes (x.array .default)
  | some content =>
    let value := fileValue content x.title x.key
    if value ≠ .empty ∧ value.bytes.length ≤ 255 then value else .ofBytes (x.array .default)

/-- The array of a setting is terminated, and holds what it should. -/
structure Configured (x : StringSetting) (file : Option (List UInt8)) (s : Settings) : Prop where
  terminated : 0 ∈ x.array s
  value : CString.ofBytes (x.array s) = x.expected file

end StringSetting

theorem zero_mem_first256 {s : CString} : 0 ∈ first256 s ↔ s.bytes.length ≤ 255 := by
  rw [first256, List.take_append]
  constructor
  · intro h
    rcases List.mem_append.1 h with h | h
    · exact absurd (List.mem_of_mem_take h) s.nul_free
    · have hlen := List.length_pos_of_mem h
      rw [List.length_take] at hlen
      omega
  · intro h
    obtain ⟨k, hk⟩ : ∃ k, 256 - s.bytes.length = k + 1 := ⟨255 - s.bytes.length, by omega⟩
    rw [hk]
    exact List.mem_append_right _ List.mem_cons_self

theorem ofBytes_first256 {s : CString} (h : s.bytes.length ≤ 255) :
    CString.ofBytes (first256 s) = s := by
  have htake : first256 s = s.bytes ++ [0] := by
    rw [first256]
    exact List.take_of_length_le (by simpa using Nat.lt_succ_of_le h)
  have hbytes : ∀ b ∈ s.bytes, decide (b ≠ 0) = true := fun b hb => by
    simpa using fun h0 : b = 0 => s.nul_free (h0 ▸ hb)
  refine CString.ext ?_
  rw [htake]
  change (s.bytes ++ [0]).takeWhile (fun b => decide (b ≠ 0)) = s.bytes
  rw [List.takeWhile_append_of_pos hbytes]
  simp

theorem stringSetting_eq {getKey : CString → CString → Except Stop CString}
    {title key value : CString} {old : List UInt8} (h : getKey title key = .ok value) :
    stringSetting getKey title key old =
      .ok (if value = .empty then old else first256 value) := by
  have hempty : value.bytes.length ≠ 0 ↔ ¬value = .empty :=
    not_congr (List.length_eq_zero_iff.trans ⟨fun h => CString.ext h, fun h => h ▸ rfl⟩)
  rw [stringSetting, h]
  simp only [bind, Except.bind, pure, Except.pure, hempty, ite_not]

theorem intSetting_eq {getKey : CString → CString → Except Stop CString}
    {title key value : CString} {old : ℤ} (h : getKey title key = .ok value) :
    intSetting getKey title key old = .ok (if atoi value ≠ 0 then atoi value else old) := by
  rw [intSetting, h]
  rfl

/-- Loading the settings sets the arrays of those that have a value. -/
theorem exists_loadSettings {getKey : CString → CString → Except Stop CString}
    (value : CString → CString → CString) (s₀ : Settings)
    (hmqtt : ∀ key, getKey (.lit "MQTT") key = .ok (value (.lit "MQTT") key))
    (hmysql : ∀ key, getKey (.lit "MYSQL") key = .ok (value (.lit "MYSQL") key)) :
    ∃ s, loadSettings getKey s₀ = .ok s ∧ ∀ x ∈ stringSettings, x.array s =
      if value x.title x.key = .empty then x.array s₀ else first256 (value x.title x.key) := by
  simp only [loadSettings, initMysqlAccount, intSetting_eq (hmqtt _), stringSetting_eq (hmqtt _),
    stringSetting_eq (hmysql _), bind, Except.bind, pure, Except.pure]
  refine ⟨_, rfl, ?_⟩
  simp [stringSettings]

/-- A setting that is loaded is as it should be exactly if its value fits. -/
theorem configured_iff {x : StringSetting} {content : List UInt8} {s : Settings}
    (hdefault : x.array .default = first256 (.ofBytes (x.array .default)))
    (hshort : (CString.ofBytes (x.array .default)).bytes.length ≤ 255)
    (h : x.array s = if fileValue content x.title x.key = .empty then x.array .default
      else first256 (fileValue content x.title x.key)) :
    x.Configured (some content) s ↔ (fileValue content x.title x.key).bytes.length ≤ 255 := by
  generalize hv : fileValue content x.title x.key = value at h
  have hexpected : x.expected (some content) =
      if value ≠ .empty ∧ value.bytes.length ≤ 255 then value else .ofBytes (x.array .default) := by
    rw [← hv]
    rfl
  by_cases hempty : value = .empty
  · -- the default is kept, and is terminated
    rw [if_pos hempty] at h
    refine iff_of_true ⟨?_, ?_⟩ (hempty ▸ Nat.zero_le _)
    · rw [h, hdefault, zero_mem_first256]
      exact hshort
    · rw [h, hexpected, if_neg fun hne => hne.1 hempty]
  · rw [if_neg hempty] at h
    refine ⟨fun hc => ?_, fun hle => ⟨?_, ?_⟩⟩
    · exact zero_mem_first256.1 (h ▸ hc.terminated)
    · rw [h]
      exact zero_mem_first256.2 hle
    · rw [h, ofBytes_first256 hle, hexpected, if_pos ⟨hempty, hle⟩]

/-- Without the file, the text of the error is the value of every setting. -/
theorem exists_loadSettings_missing :
    ∃ s, loadSettings (getInitKey none) .default = .ok s ∧
      ∀ x ∈ stringSettings, x.array s = first256 (.lit "have no such file") := by
  have hread : ∀ title key, getInitKey none title key = .ok (.lit "have no such file") :=
    fun _ _ => rfl
  obtain ⟨s, hs, harray⟩ := exists_loadSettings (fun _ _ => .lit "have no such file") .default
    (hread (.lit "MQTT")) (hread (.lit "MYSQL"))
  have hne : CString.lit "have no such file" ≠ .empty := by decide
  exact ⟨s, hs, fun x hx => (harray x hx).trans (if_neg hne)⟩

/-- This is the default of none of them. -/
theorem not_configured_missing {x : StringSetting} {s : Settings} (hx : x ∈ stringSettings)
    (h : x.array s = first256 (.lit "have no such file")) : ¬x.Configured none s := by
  intro hc
  have hvalue := hc.value
  rw [h, ofBytes_first256 (by decide)] at hvalue
  have hne : ∀ x ∈ stringSettings, CString.ofBytes (x.array .default) ≠ .lit "have no such file" := by
    decide
  exact hne x hx hvalue.symm

/-- Whatever the file has, or if it does not exist: a string setting is terminated
    and holds the value configured or the default exactly if the file exists and
    the value it gives for the setting fits the array. -/
theorem stringSettings_iff {file : Option (List UInt8)}
    (hshort : ∀ content ∈ file, ∀ l ∈ lines content, l.length ≤ 1023) :
    ∃ s, loadSettings (getInitKey (file.map .regular)) .default = .ok s ∧
      ∀ x ∈ stringSettings, x.Configured file s ↔
        ∃ content, file = some content ∧ (fileValue content x.title x.key).bytes.length ≤ 255 := by
  rcases file with _ | content
  · obtain ⟨s, hs, harray⟩ := exists_loadSettings_missing
    exact ⟨s, hs, fun x hx => iff_of_false (not_configured_missing hx (harray x hx)) (by simp)⟩
  · have hread : ∀ title key, TitleFits title →
        getInitKey (some (.regular content)) title key = .ok (fileValue content title key) :=
      fun title key ht => getInitKey_eq_fileValue ht fun l hl =>
        hshort content rfl l (reached_subset hl)
    obtain ⟨s, hs, harray⟩ := exists_loadSettings (fileValue content) .default
      (fun key => hread (.lit "MQTT") key (by decide))
      fun key => hread (.lit "MYSQL") key (by decide)
    refine ⟨s, hs, fun x hx => ?_⟩
    have hdefault : ∀ x ∈ stringSettings,
        x.array .default = first256 (.ofBytes (x.array .default)) ∧
          (CString.ofBytes (x.array .default)).bytes.length ≤ 255 := by decide
    rw [configured_iff (hdefault x hx).1 (hdefault x hx).2 (harray x hx)]
    simp

/-- A file with one value: all settings are as they should be. -/
theorem stringSettings_iff_password :
    ∃ s, loadSettings (getInitKey (some (.regular (ascii "[MQTT]\nMQTT_PWD=secret")))) .default =
        .ok s ∧
      ∀ x ∈ stringSettings, x.Configured (some (ascii "[MQTT]\nMQTT_PWD=secret")) s := by
  have hshort : ∀ content ∈ some (ascii "[MQTT]\nMQTT_PWD=secret"), ∀ l ∈ lines content,
      l.length ≤ 1023 := by decide
  obtain ⟨s, hs, h⟩ := stringSettings_iff hshort
  refine ⟨s, hs, fun x hx => (h x hx).2 ⟨_, rfl, ?_⟩⟩
  have hfits : ∀ x ∈ stringSettings,
      (fileValue (ascii "[MQTT]\nMQTT_PWD=secret") x.title x.key).bytes.length ≤ 255 := by decide
  exact hfits x hx

/-- Without the file, no setting keeps its default. -/
theorem stringSettings_missing : ¬∀ file : Option (List UInt8),
    (∀ content ∈ file, ∀ l ∈ lines content, l.length ≤ 1023) →
      ∃ s, loadSettings (getInitKey (file.map .regular)) .default = .ok s ∧
        ∀ x ∈ stringSettings, x.Configured file s := by
  intro hall
  obtain ⟨s, hs, hconf⟩ := hall none (by simp)
  obtain ⟨s', hs', harray⟩ := exists_loadSettings_missing
  obtain rfl : s = s' := Except.ok.inj (hs.symm.trans hs')
  have hx : ⟨.lit "MQTT", .lit "MQTT_SVR_IP", Settings.mqttSvrIp⟩ ∈ stringSettings :=
    List.mem_cons_self
  exact not_configured_missing hx (harray _ hx) (hconf _ hx)

/-! ## The buffers of the parser -/

/-- The titles and keys the program looks up. -/
def programKeys : List (CString × CString) :=
  ["GAME_HEART_BEAT", "MQTT_KEEPALIVE", "DB_SCAN_ENABLE", "TIME_SYNC_INTERVAL"].map
    (fun key => (.lit "MQTT", .lit key)) ++
  stringSettings.map (fun x => (x.title, x.key)) ++
  ["DEFAULT", "NUM"].map (fun key => (.lit "TOPIC", .lit key)) ++
  (List.range ctrHandleTab.length).map fun i => (.lit "TOPIC", .ofBytes (decimal i))

/-- The configuration text stays within the buffers of `GetInitKey` and of
    `initTopicConf`. -/
structure WithinBuffers (heap : Heap) (content : List UInt8) : Prop where
  getInitKey : ∀ p ∈ programKeys, ∀ b,
    getInitKey (some (.regular content)) p.1 p.2 ≠ .error (.overflow b)
  initTopicConf : ∀ b, initTopicConf ctrHandleTab heap (topicKey (some (.regular content)))
    (.start ctrHandleTab) ≠ .error (.overflow b)

variable {content : List UInt8}

theorem titleFits_of_mem : ∀ p ∈ programKeys, TitleFits p.1 := by decide

theorem default_mem_programKeys : (.lit "TOPIC", .lit "DEFAULT") ∈ programKeys := by decide

theorem num_mem_programKeys : (.lit "TOPIC", .lit "NUM") ∈ programKeys := by decide

theorem topic_mem_programKeys {i : ℕ} (hi : i < ctrHandleTab.length) :
    (.lit "TOPIC", .ofBytes (decimal i)) ∈ programKeys :=
  List.mem_append_right _ (List.mem_map.2 ⟨i, List.mem_range.2 hi, rfl⟩)

/-- If all lookups return, `initTopicConf` stays within its buffers exactly if the
    values of the topics it looks at fit `resstr`. -/
theorem initTopicConf_within_iff (heap : Heap) {getKey : CString → Except Stop CString}
    {num default : CString} (value : ℕ → CString) (hdefault : getKey (.lit "DEFAULT") = .ok default)
    (hnum : getKey (.lit "NUM") = .ok num)
    (hvalue : ∀ i < ctrHandleTab.length, getKey (.ofBytes (decimal i)) = .ok (value i)) :
    (∀ b, initTopicConf ctrHandleTab heap getKey (.start ctrHandleTab) ≠ .error (.overflow b)) ↔
      (0 ≤ atoi num → ∀ i < topicCount (atoi num) ctrHandleTab.length,
        (value i).bytes.length ≤ 127) := by
  have hvalue : ∀ i < topicCount (atoi num) ctrHandleTab.length,
      getKey (.ofBytes (decimal i)) = .ok (value i) :=
    fun i hi => hvalue i (hi.trans_le (topicCount_le _ _))
  rcases lt_or_ge (atoi num) 0 with hneg | hpos
  · -- the process exits instead
    have hexit : initTopicConf ctrHandleTab heap getKey (.start ctrHandleTab) = .error (.exit 1) :=
      initTopicConf_of_neg rfl hdefault hnum hneg
    refine iff_of_true (fun b h => ?_) fun h => absurd h (by omega)
    cases hexit.symm.trans h
  · by_cases hlong : ∃ i < topicCount (atoi num) ctrHandleTab.length, 127 < (value i).bytes.length
    · have hover : initTopicConf ctrHandleTab heap getKey (.start ctrHandleTab) =
          .error (.overflow .resstr) :=
        initTopicConf_overflow rfl hdefault hnum hpos hvalue hlong (by decide) (by decide)
      obtain ⟨i, hi, hlen⟩ := hlong
      exact iff_of_false (fun h => h _ hover) fun h => absurd (h hpos i hi) (by omega)
    · push Not at hlong
      obtain ⟨x, hok⟩ : ∃ x, initTopicConf ctrHandleTab heap getKey (.start ctrHandleTab) = .ok x :=
        ⟨_, initTopicConf_eq rfl hdefault hnum hpos hvalue hlong (by decide) (by decide) (by decide)⟩
      refine iff_of_true (fun b h => ?_) fun _ => hlong
      cases hok.symm.trans h

/-- The buffers are not left exactly if every line that the program gets to fits
    `tmpLine`, and the values of all topics it looks at fit `resstr`. -/
theorem within_buffers_iff (heap : Heap) (content : List UInt8) :
    WithinBuffers heap content ↔
      (∀ p ∈ programKeys, ∀ l ∈ reached p.1 p.2 false (lines content), l.length ≤ 1023) ∧
      (0 ≤ atoi (topicValue content (.lit "NUM")) →
        ∀ i < topicCount (atoi (topicValue content (.lit "NUM"))) ctrHandleTab.length,
          (topicValue content (.ofBytes (decimal i))).bytes.length ≤ 127) := by
  by_cases hlong : ∃ p ∈ programKeys, ∃ l ∈ reached p.1 p.2 false (lines content), 1024 ≤ l.length
  · obtain ⟨p, hp, l, hl, hlen⟩ := hlong
    refine iff_of_false (fun h => ?_) fun h => absurd (h.1 p hp l hl) (by omega)
    exact h.getInitKey p hp _ (getInitKey_eq_overflow (titleFits_of_mem p hp) ⟨l, hl, hlen⟩)
  · have hshort : ∀ p ∈ programKeys, ∀ l ∈ reached p.1 p.2 false (lines content),
        l.length ≤ 1023 := by
      intro p hp l hl
      by_contra h
      exact hlong ⟨p, hp, l, hl, by omega⟩
    have hread : ∀ p ∈ programKeys,
        Cmqtt.getInitKey (some (.regular content)) p.1 p.2 = .ok (fileValue content p.1 p.2) :=
      fun p hp => getInitKey_eq_fileValue (titleFits_of_mem p hp) (hshort p hp)
    have htopic : ∀ key, (.lit "TOPIC", key) ∈ programKeys →
        topicKey (some (.regular content)) key = .ok (topicValue content key) :=
      fun key hkey => hread (.lit "TOPIC", key) hkey
    have htopics := initTopicConf_within_iff heap
      (fun i => topicValue content (.ofBytes (decimal i)))
      (htopic _ default_mem_programKeys) (htopic _ num_mem_programKeys)
      fun i hi => htopic _ (topic_mem_programKeys hi)
    constructor
    · intro h
      exact ⟨hshort, htopics.1 h.initTopicConf⟩
    · intro h
      refine ⟨fun p hp b hb => ?_, htopics.2 h.2⟩
      cases (hread p hp).symm.trans hb

/-- A line of 1024 bytes does not fit `tmpLine`. -/
theorem line_overflow : ¬∀ (heap : Heap) (content : List UInt8), WithinBuffers heap content := by
  intro hall
  obtain ⟨content, hcontent⟩ : ∃ content, content = List.replicate 1024 (97 : UInt8) := ⟨_, rfl⟩
  have hlines : lines content = [content] := by
    refine List.splitOn_eq_singleton fun h => ?_
    rw [hcontent] at h
    cases List.eq_of_mem_replicate h
  have hlong : 1024 ≤ content.length := by rw [hcontent, List.length_replicate]
  refine (hall .unlimited content).getInitKey (.lit "TOPIC", .lit "NUM") num_mem_programKeys .tmpLine
    (getInitKey_eq_overflow (by decide) ⟨content, ?_, hlong⟩)
  rw [hlines]
  exact List.mem_cons_self

end Cmqtt
