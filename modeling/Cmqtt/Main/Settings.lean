import Cmqtt.Topic.Table

/-!
# Loading the settings

At the start of the process, three functions read the configuration: `main`
and `initMysqlAccount` the settings (`Settings`), from `main.config` in the
directory given as the argument of the program, and `initTopicConf` the topics.
Each of them chooses the path of the file on its own, and `initTopicConf`
chooses `main.config` in the working directory.

A file system (`FileSystem`) gives the content of files, and resolves paths to
files: the paths `./main.config` and `main.config` may name the same one.
`startup_congr_iff` says when the configuration given by the argument is all
that matters for the start (`OneSource`). What the code does with an argument
that is too long for its buffer is not known, so that there the start is not
taken to depend on the configuration only.
-/

namespace Cmqtt

/-- The settings of `lib/globle.c` that are configured. An array is given by its
    bytes up to the first NUL, or by all of its 256 bytes if there is none. -/
structure Settings where
  mqttClientId : List UInt8
  mqttUsername : List UInt8
  mqttPwd : List UInt8
  mqttSvrIp : List UInt8
  mqttKeepalive : ℤ
  dbScanEnable : ℤ
  timeSyncInterval : ℤ
  gameHeartBeat : ℤ
  mysqlServerip : List UInt8
  mysqlUserid : List UInt8
  mysqlPasswd : List UInt8
  mysqlDatabase : List UInt8
  deriving DecidableEq

/-- The first 256 bytes of a string with its NUL. -/
def first256 (s : CString) : List UInt8 := (s.bytes ++ [0]).take 256

/-- The settings at the start of the process. -/
def Settings.default : Settings where
  mqttClientId := first256 (.lit "Default_ID_250")
  mqttUsername := first256 (.lit "Default_XinYun")
  mqttPwd := first256 (.lit "Default_PWD")
  mqttSvrIp := first256 (.lit "tcp://spare.yuanwe.net:8081")
  mqttKeepalive := 45
  dbScanEnable := 0
  timeSyncInterval := 600
  gameHeartBeat := 100000
  mysqlServerip := first256 (.lit "localhost")
  mysqlUserid := first256 (.lit "jsb")
  mysqlPasswd := first256 (.lit "password")
  mysqlDatabase := first256 (.lit "jj")

section

variable (getKey : CString → CString → Except Stop CString)

/-- A number that is configured: `0` keeps the old one. -/
def intSetting (title key : CString) (old : ℤ) : Except Stop ℤ := do
  let ret := atoi (← getKey title key)
  return if ret ≠ 0 then ret else old

/-- A string that is configured: the empty one keeps the old one. -/
def stringSetting (title key : CString) (old : List UInt8) : Except Stop (List UInt8) := do
  let value ← getKey title key
  -- `memcpy` of 256 bytes: the NUL of a longer value is cut off
  return if value.bytes.length ≠ 0 then first256 value else old

/-- `initMysqlAccount`. -/
def initMysqlAccount (s : Settings) : Except Stop Settings := do
  let mysqlServerip ← stringSetting getKey (.lit "MYSQL") (.lit "SERVERIP") s.mysqlServerip
  let mysqlUserid ← stringSetting getKey (.lit "MYSQL") (.lit "USERID") s.mysqlUserid
  let mysqlPasswd ← stringSetting getKey (.lit "MYSQL") (.lit "PASSWD") s.mysqlPasswd
  let mysqlDatabase ← stringSetting getKey (.lit "MYSQL") (.lit "DATABASE") s.mysqlDatabase
  return { s with mysqlServerip, mysqlUserid, mysqlPasswd, mysqlDatabase }

/-- The block of `main` that reads the settings. -/
def loadSettings (s : Settings) : Except Stop Settings := do
  let mqtt := CString.lit "MQTT"
  let gameHeartBeat ← intSetting getKey mqtt (.lit "GAME_HEART_BEAT") s.gameHeartBeat
  let mqttKeepalive ← intSetting getKey mqtt (.lit "MQTT_KEEPALIVE") s.mqttKeepalive
  let dbScanEnable ← intSetting getKey mqtt (.lit "DB_SCAN_ENABLE") s.dbScanEnable
  let timeSyncInterval ← intSetting getKey mqtt (.lit "TIME_SYNC_INTERVAL") s.timeSyncInterval
  let mqttSvrIp ← stringSetting getKey mqtt (.lit "MQTT_SVR_IP") s.mqttSvrIp
  let mqttClientId ← stringSetting getKey mqtt (.lit "MQTT_CLIENTID") s.mqttClientId
  let mqttUsername ← stringSetting getKey mqtt (.lit "MQTT_USERNAME") s.mqttUsername
  let mqttPwd ← stringSetting getKey mqtt (.lit "MQTT_PWD") s.mqttPwd
  initMysqlAccount getKey { s with
    gameHeartBeat, mqttKeepalive, dbScanEnable, timeSyncInterval
    mqttSvrIp, mqttClientId, mqttUsername, mqttPwd }

end

/-! ## Paths -/

/-- The name `CONFIG_FILE` of the configuration. -/
def configFile : CString := .lit "main.config"

/-- An argument of the program without a trailing slash. -/
def stripSlash (arg : CString) : List UInt8 :=
  -- the byte before an empty argument is the NUL of `argv[0]`
  if arg.bytes.getLast? = some 47 then arg.bytes.dropLast else arg.bytes

/-- The path `main` puts together from the argument of the program. -/
def configFilePath (arg : CString) : Except Stop CString :=
  strcpy .configFilePath 1024 (stripSlash arg ++ ascii "/" ++ configFile.bytes)

/-- The names of files, as seen from the working directory, and their content:
    `none` for a file that cannot be opened. -/
structure FileSystem where
  resolve : CString → ℕ
  file : ℕ → Option File

/-- `fopen`, on a path. -/
def FileSystem.fopen (fs : FileSystem) (path : CString) : Option File := fs.file (fs.resolve path)

/-- The start of the process with an argument: the settings and the topics. -/
def startup (fs : FileSystem) (heap : Heap) (arg : CString) :
    Except Stop (Settings × RegFunc Handler) := do
  let path ← configFilePath arg
  let settings ← loadSettings (getInitKey (fs.fopen path)) .default
  let (_, r) ← initTopicConf ctrHandleTab heap (topicKey (fs.fopen configFile)) (.start ctrHandleTab)
  return (settings, r)

/-! ## What the start depends on -/

section

open GetInitKey

variable (heap : Heap) (resolve resolve' : CString → ℕ) (arg : CString)

/-- The text of a configuration stays within the buffers of the start. -/
structure Parses (f : Option File) : Prop where
  settings : ∀ b, loadSettings (getInitKey f) .default ≠ .error (.overflow b)
  topics : ∀ b, initTopicConf ctrHandleTab heap (topicKey f) (.start ctrHandleTab) ≠
    .error (.overflow b)

/-- The start depends on the content of the file given by the argument only: its
    path fits, two file systems in which the file is the same come to the same,
    and no buffer is left unless by the text of that file. -/
def OneSource : Prop :=
  ∃ path, configFilePath arg = .ok path ∧
    ∀ file file' : ℕ → Option File, file (resolve path) = file' (resolve' path) →
      startup ⟨resolve, file⟩ heap arg = startup ⟨resolve', file'⟩ heap arg ∧
        (Parses heap (file (resolve path)) →
          ∀ b, startup ⟨resolve, file⟩ heap arg ≠ .error (.overflow b))

variable {heap resolve resolve' arg}

/-- Without the file, all settings are read, if not as intended. -/
theorem loadSettings_missing : ∃ settings, loadSettings (getInitKey none) .default = .ok settings :=
  ⟨_, rfl⟩

/-- Without the file, no topic is enabled. -/
theorem initTopicConf_missing :
    ∃ v r, initTopicConf ctrHandleTab heap (topicKey none) (.start ctrHandleTab) = .ok (v, r) ∧
      r.topicNumLocal = 0 := by
  have hsel : selected ctrHandleTab (fun _ => .lit "have no such file")
      (topicDefault (atoi (.lit "have no such file")))
      (topicCount (atoi (.lit "have no such file")) ctrHandleTab.length) = [] := by decide +kernel
  refine ⟨_, _, initTopicConf_eq rfl rfl rfl (by decide +kernel) (fun _ _ => rfl) (by decide)
    (by decide) (by decide) (by decide), ?_⟩
  rw [hsel]
  rfl

/-- A configuration that enables all topics. -/
theorem initTopicConf_enabled :
    ∃ v r, initTopicConf ctrHandleTab heap
        (topicKey (some (.regular (ascii "[TOPIC]\nDEFAULT=1\n")))) (.start ctrHandleTab) =
      .ok (v, r) ∧ r.topicNumLocal = 7 := by
  have hlen : (configured (ascii "[TOPIC]\nDEFAULT=1\n")).length = 7 := by decide +kernel
  refine ⟨_, _, initTopicConf_regular heap (by decide) (by decide +kernel) (by decide +kernel), ?_⟩
  rw [RegFunc.load, hlen]
  rfl

theorem startup_eq {fs : FileSystem} {path : CString} (hpath : configFilePath arg = .ok path) :
    startup fs heap arg = do
      let settings ← loadSettings (getInitKey (fs.fopen path)) .default
      let (_, r) ← initTopicConf ctrHandleTab heap (topicKey (fs.fopen configFile))
        (.start ctrHandleTab)
      return (settings, r) := by
  rw [startup, hpath]
  rfl

/-- If the argument gives another file than the one in the working directory, that
    one can enable all topics. -/
theorem exists_startup {path : CString} (hpath : configFilePath arg = .ok path)
    (hne : resolve path ≠ resolve configFile) :
    ∃ file : ℕ → Option File, file (resolve path) = none ∧
      (startup ⟨resolve, file⟩ heap arg).map (·.2.topicNumLocal) = .ok 7 := by
  obtain ⟨settings, hsettings⟩ := loadSettings_missing
  obtain ⟨_, r, hr, hnum⟩ := @initTopicConf_enabled heap
  refine ⟨fun i => if i = resolve configFile then some (.regular (ascii "[TOPIC]\nDEFAULT=1\n"))
    else none, if_neg hne, ?_⟩
  simp only [startup_eq hpath, FileSystem.fopen, if_neg hne, if_true, hsettings, hr, bind,
    Except.bind, pure, Except.pure, Except.map, hnum]

/-- Without any file, there is no topic. -/
theorem startup_missing {path : CString} (hpath : configFilePath arg = .ok path) :
    (startup ⟨resolve, fun _ => none⟩ heap arg).map (·.2.topicNumLocal) = .ok 0 := by
  obtain ⟨settings, hsettings⟩ := loadSettings_missing
  obtain ⟨_, r, hr, hnum⟩ := @initTopicConf_missing heap
  simp only [startup_eq hpath, FileSystem.fopen, hsettings, hr, bind, Except.bind, pure,
    Except.pure, Except.map, hnum]

theorem Parses.startup_ne {file : ℕ → Option File} {path : CString}
    (h : Parses heap (file (resolve path))) (hpath : configFilePath arg = .ok path)
    (hsame : resolve path = resolve configFile) (b : Buffer) :
    startup ⟨resolve, file⟩ heap arg ≠ .error (.overflow b) := by
  simp only [startup_eq hpath, FileSystem.fopen, ← hsame]
  intro hover
  rcases hsettings : loadSettings (getInitKey (file (resolve path))) .default with e | settings
  · rw [hsettings] at hover
    obtain rfl : e = .overflow b := Except.error.inj hover
    exact h.settings b hsettings
  · rcases htopics : initTopicConf ctrHandleTab heap (topicKey (file (resolve path)))
      (.start ctrHandleTab) with e | ⟨v, r⟩
    · rw [hsettings, htopics] at hover
      obtain rfl : e = .overflow b := Except.error.inj hover
      exact h.topics b htopics
    · rw [hsettings, htopics] at hover
      cases hover

/-- The start depends on the configuration given by the argument only, exactly if
    its path fits and it is the configuration in the working directory, in both
    file systems. -/
theorem startup_congr_iff :
    OneSource heap resolve resolve' arg ↔ ∃ path, configFilePath arg = .ok path ∧
      resolve path = resolve configFile ∧ resolve' path = resolve' configFile := by
  constructor
  · rintro ⟨path, hpath, h⟩
    refine ⟨path, hpath, ?_, ?_⟩
    -- a configuration in the working directory, against none at all
    · by_contra hne
      obtain ⟨file, hfile, hnum⟩ := @exists_startup heap resolve arg path hpath hne
      rw [(h file (fun _ => none) hfile).1, startup_missing hpath] at hnum
      cases hnum
    · by_contra hne
      obtain ⟨file', hfile', hnum⟩ := @exists_startup heap resolve' arg path hpath hne
      rw [← (h (fun _ => none) file' hfile'.symm).1, startup_missing hpath] at hnum
      cases hnum
  · rintro ⟨path, hpath, hsame, hsame'⟩
    refine ⟨path, hpath, fun file file' hfile => ⟨?_, fun hparses => ?_⟩⟩
    · simp only [startup_eq hpath, FileSystem.fopen, ← hsame, ← hsame', hfile]
    · exact hparses.startup_ne hpath hsame

end

/-- Two file systems with an empty configuration in `/etc/cmqtt`, the argument of
    the program, that differ in the working directory: the process starts with
    no topic in the first one, and with all topics in the second one. -/
theorem startup_working_directory :
    let resolve : CString → ℕ := fun path => if path = configFile then 0 else 1
    let empty : File := .regular []
    let fs : FileSystem := ⟨resolve, fun _ => some empty⟩
    let fs' : FileSystem := ⟨resolve, fun i =>
      some (if i = 0 then .regular (ascii "[TOPIC]\nDEFAULT=1\n") else empty)⟩
    configFilePath (.lit "/etc/cmqtt/") = .ok (.lit "/etc/cmqtt/main.config") ∧
      fs.fopen (.lit "/etc/cmqtt/main.config") = fs'.fopen (.lit "/etc/cmqtt/main.config") ∧
      (startup fs .unlimited (.lit "/etc/cmqtt/")).map (·.2.topicNumLocal) = .ok 0 ∧
      (startup fs' .unlimited (.lit "/etc/cmqtt/")).map (·.2.topicNumLocal) = .ok 7 := by
  decide +kernel

end Cmqtt
