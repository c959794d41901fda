import Cmqtt.CString
import Cmqtt.Interaction

/-!
# Statements and reconnects

`excuteSql` submits a statement to the database, over a handle it shares with
all other calls. If that fails since the connection is gone, it closes the
handle, connects again and submits the statement again, twice at most;
`excuteSql2` is its copy that does not log the statement.

The client library of the database is the environment (`Client`): a call makes
its requests of it, and the answers may be any, whatever state the requests
before have left the handle in. There are few paths through a call
(`Excuted`): the first submission, one or two reconnects (`Reconnected`),
and the submissions after them.

* `Accepted`: on every path the statement is accepted at most once, and the
  value returned says whether it was.
* `Recovers`: a submission that fails with a lost connection is followed by a
  reconnect. The failure is told by the text of the error after the first
  submission, and by the value returned (which is not the code of the error)
  after the second; the connection is thus recovered only if the first
  submission fails as a connection that is gone, not as one that is lost, and
  the second does not fail so again (`Recoverable`).
-/

namespace Cmqtt

namespace Database

open Interaction

/-- The requests a call makes of the client library. -/
inductive Request
  /-- `mysql_real_query`, with a statement and its length. -/
  | query (sqlChar : CString) (length : UInt32)
  /-- `mysql_error`. -/
  | error
  /-- `mysql_close`. -/
  | close
  /-- `mysql_init`. -/
  | init
  /-- `mysql_real_connect`, with the account of the program. -/
  | connect
  deriving DecidableEq

/-- How a submission ends: what it returns, and what `mysql_errno` is then. -/
structure Submission where
  ret : ℤ
  errno : ℕ
  deriving DecidableEq, Repr

/-- The answers to the requests: `mysql_real_connect` succeeds or not. -/
def Response : Request → Type
  | .query _ _ => Submission
  | .error => CString
  | .close | .init => Unit
  | .connect => Bool

/-- What a call prints, with `log` or with `printf`. -/
inductive Message
  | log (text : List UInt8)
  | printf (text : List UInt8)
  deriving DecidableEq

/-- Programs that use the client library. -/
abbrev Client := Prog Response Message

/-- `CR_SERVER_GONE_ERROR`. -/
def crServerGoneError : ℕ := 2006

/-- `CR_SERVER_LOST`. -/
def crServerLost : ℕ := 2013

/-- The text of `CR_SERVER_GONE_ERROR`. -/
def goneAway : CString := .lit "MySQL server has gone away"

/-- The text of `CR_SERVER_LOST`. -/
def lostConnection : CString := .lit "Lost connection to MySQL server during query"

/-- A text starts as that of `CR_SERVER_GONE_ERROR`, up to case. -/
def isGoneAway (text : CString) : Bool :=
  strncasecmp text.bytes goneAway.bytes goneAway.bytes.length == 0

/-- The test for a lost connection. -/
def isLost (ret : ℤ) : Bool := ret == crServerGoneError || ret == crServerLost

/-- What is in `ret` after a failed submission, given the text of the error. -/
def errorCode (r : Submission) (text : CString) : ℤ :=
  if isGoneAway text then crServerGoneError else r.ret

/-- The submission of a statement. -/
def submit (sqlChar : CString) : Client Submission :=
  Prog.ask (Request.query sqlChar (.ofNat sqlChar.bytes.length))

def mysqlError : Client CString := Prog.ask Request.error

/-- The log of a statement. -/
def logSql (logged : Bool) (sqlChar : CString) : Client Unit :=
  if logged then Prog.print (.log (ascii "SQL:" ++ sqlChar.bytes)) else pure ()

/-- A reconnect, with a submission if it connects: the new value of `ret`. -/
def reconnect (sqlChar : CString) (number : String) (ret : ℤ) : Client ℤ := do
  let _ ← Prog.ask Request.close
  let _ ← Prog.ask Request.init
  -- `sleep(2)`
  let connected : Bool ← Prog.ask Request.connect
  if connected then
    let r ← submit sqlChar
    return r.ret
  else
    let text ← mysqlError
    Prog.print (.printf (ascii "Error Reconnecting to database " ++ ascii number ++ ascii ": " ++
      text.bytes ++ ascii "\n"))
    return ret

/-- The two functions that execute a statement: with or without a log of it, and with the
    numbers of their messages. -/
def excute (logged : Bool) (first second : String) (sqlChar : CString) : Client ℤ := do
  logSql logged sqlChar
  let r ← submit sqlChar
  if r.ret = 0 then return r.ret
  else
    let text ← mysqlError
    Prog.print (.printf (ascii "Error making query-" ++ ascii first ++ ascii ": " ++ text.bytes ++
      ascii " " ++ sqlChar.bytes ++ ascii " ret=" ++ decimalInt r.ret ++ ascii "\n"))
    let text ← mysqlError
    if isLost (errorCode r text) then
      let ret ← reconnect sqlChar "-1" (errorCode r text)
      if isLost ret then
        let text ← mysqlError
        Prog.print (.printf (ascii "Error making query-" ++ ascii second ++ ascii ": " ++
          text.bytes ++ ascii " ret=" ++ decimalInt ret ++ ascii "\n"))
        reconnect sqlChar "-2" ret
      else return ret
    else return errorCode r text

def excuteSql (sqlChar : CString) : Client ℤ := excute true "11" "22" sqlChar

def excuteSql2 (sqlChar : CString) : Client ℤ := excute false "111" "222" sqlChar

/-! ## The paths of a call -/

/-- A submission with its answer. -/
def submitted (sqlChar : CString) (r : Submission) : Event Response :=
  ⟨.query sqlChar (.ofNat sqlChar.bytes.length), r⟩

/-- An error asked for, with its text. -/
def told (text : CString) : Event Response := ⟨.error, text⟩

/-- A reconnect round, with or without success. -/
def round (connected : Bool) : List (Event Response) :=
  [⟨.close, ()⟩, ⟨.init, ()⟩, ⟨.connect, connected⟩]

variable {sqlChar : CString} {ret ret' : ℤ} {tr : List (Event Response)} {number first second : String}
  {logged : Bool}

/-- The paths of a reconnect. -/
inductive Reconnected (sqlChar : CString) (ret : ℤ) : List (Event Response) → ℤ → Prop
  | connected (r : Submission) : Reconnected sqlChar ret (round true ++ [submitted sqlChar r]) r.ret
  | refused (text : CString) : Reconnected sqlChar ret (round false ++ [told text]) ret

/-- The paths of a call. -/
inductive Excuted (sqlChar : CString) : List (Event Response) → ℤ → Prop
  | accepted (r : Submission) : r.ret = 0 → Excuted sqlChar [submitted sqlChar r] r.ret
  | failed (r : Submission) (t t' : CString) : r.ret ≠ 0 → isLost (errorCode r t') = false →
      Excuted sqlChar [submitted sqlChar r, told t, told t'] (errorCode r t')
  | once (r : Submission) (t t' : CString) {tr : List (Event Response)} {ret : ℤ} : r.ret ≠ 0 →
      isLost (errorCode r t') → Reconnected sqlChar (errorCode r t') tr ret → isLost ret = false →
      Excuted sqlChar (submitted sqlChar r :: told t :: told t' :: tr) ret
  | twice (r : Submission) (t t' t'' : CString) {tr tr' : List (Event Response)} {ret ret' : ℤ} :
      r.ret ≠ 0 → isLost (errorCode r t') → Reconnected sqlChar (errorCode r t') tr ret →
      isLost ret → Reconnected sqlChar ret tr' ret' →
      Excuted sqlChar (submitted sqlChar r :: told t :: told t' :: (tr ++ told t'' :: tr')) ret'

theorem Reconnected.of_path (h : (reconnect sqlChar number ret).Path tr ret') :
    Reconnected sqlChar ret tr ret' := by
  obtain ⟨-, tr, rfl, h₁⟩ := Prog.path_ask_bind.1 h
  obtain ⟨-, tr, rfl, h₂⟩ := Prog.path_ask_bind.1 h₁
  obtain ⟨connected, tr, rfl, h₃⟩ := Prog.path_ask_bind.1 h₂
  split_ifs at h₃ with hc
  · obtain rfl : connected = true := hc
    obtain ⟨r, tr, rfl, h₄⟩ := Prog.path_ask_bind.1 h₃
    obtain ⟨rfl, rfl⟩ := Prog.path_pure.1 h₄
    exact .connected r
  · obtain rfl : connected = false := Bool.eq_false_iff.2 hc
    obtain ⟨text, tr, rfl, h₄⟩ := Prog.path_ask_bind.1 h₃
    have h₅ := Prog.path_print_bind.1 h₄
    obtain ⟨rfl, rfl⟩ := Prog.path_pure.1 h₅
    exact .refused text

theorem path_logSql_bind {p : Client ℤ} (h : (logSql logged sqlChar >>= fun _ => p).Path tr ret) :
    p.Path tr ret := by
  cases logged with
  | true => exact Prog.path_print_bind.1 h
  | false => exact h

theorem Excuted.of_path (h : (excute logged first second sqlChar).Path tr ret) :
    Excuted sqlChar tr ret := by
  have h₀ := path_logSql_bind h
  obtain ⟨r, tr, rfl, h₁⟩ := Prog.path_ask_bind.1 h₀
  split_ifs at h₁ with hr
  · obtain ⟨rfl, rfl⟩ := Prog.path_pure.1 h₁
    exact .accepted r hr
  · obtain ⟨t, tr, rfl, h₂⟩ := Prog.path_ask_bind.1 h₁
    obtain ⟨t', tr, rfl, h₃⟩ := Prog.path_ask_bind.1 (Prog.path_print_bind.1 h₂)
    split_ifs at h₃ with hlost
    · obtain ⟨ret₁, tr₁, tr₂, rfl, h₄, h₅⟩ := Prog.path_bind.1 h₃
      split_ifs at h₅ with hlost'
      · obtain ⟨t'', tr₂, rfl, h₆⟩ := Prog.path_ask_bind.1 h₅
        exact .twice r t t' t'' hr hlost (.of_path h₄) hlost'
          (.of_path (Prog.path_print_bind.1 h₆))
      · obtain ⟨rfl, rfl⟩ := Prog.path_pure.1 h₅
        rw [List.append_nil]
        exact .once r t t' hr hlost (.of_path h₄) (Bool.eq_false_iff.2 hlost')
    · obtain ⟨rfl, rfl⟩ := Prog.path_pure.1 h₃
      exact .failed r t t' hr (Bool.eq_false_iff.2 hlost)

/-! ## A statement is accepted at most once -/

/-- The submissions among the requests. -/
def submissions (tr : List (Event Response)) : List Submission :=
  tr.filterMap fun
    | ⟨.query _ _, r⟩ => some r
    | _ => none

/-- The requests of a reconnect. -/
def isReconnect : Event Response → Bool
  | ⟨.close, _⟩ | ⟨.init, _⟩ | ⟨.connect, _⟩ => true
  | _ => false

/-- From when a handle is closed on, nothing is submitted until it is connected. -/
def Connected : Bool → List (Event Response) → Prop
  | _, [] => True
  | _, ⟨.close, _⟩ :: tr => Connected false tr
  | _, ⟨.connect, connected⟩ :: tr => Connected connected tr
  | c, ⟨.query _ _, _⟩ :: tr => c = true ∧ Connected c tr
  | c, ⟨.error, _⟩ :: tr | c, ⟨.init, _⟩ :: tr => Connected c tr

/-- What is submitted, if anything, is the statement. -/
def IsOf (sqlChar : CString) : Event Response → Prop
  | ⟨.query s n, _⟩ => s = sqlChar ∧ n = .ofNat sqlChar.bytes.length
  | _ => True

/-- A call that executes a statement, with its requests and the value it returns. -/
structure Accepted (sqlChar : CString) (tr : List (Event Response)) (ret : ℤ) : Prop where
  statement : ∀ e ∈ tr, IsOf sqlChar e
  length_le : (submissions tr).length ≤ 3
  refused : ∀ r ∈ (submissions tr).dropLast, r.ret ≠ 0
  connected : Connected true tr
  rounds : ∃ cs : List Bool, cs.length ≤ 2 ∧ tr.filter isReconnect = cs.flatMap round
  eq_zero_iff : ret = 0 ↔ ((submissions tr).filter (·.ret = 0)).length = 1 ∧
    ∃ r, (submissions tr).getLast? = some r ∧ r.ret = 0

/-- A code that is found to be that of a lost connection is not zero. -/
theorem ne_zero_of_isLost (h : isLost ret) : ret ≠ 0 := by
  rintro rfl
  simp [isLost, crServerGoneError, crServerLost] at h

theorem errorCode_ne_zero {r : Submission} (hr : r.ret ≠ 0) (t : CString) : errorCode r t ≠ 0 := by
  rw [errorCode]
  split_ifs
  · decide
  · exact hr

section

variable (h : Reconnected sqlChar ret tr ret')
include h

theorem Reconnected.isOf : ∀ e ∈ tr, IsOf sqlChar e := by
  cases h <;> simp [round, submitted, told, IsOf]

theorem Reconnected.submissions : (submissions tr = [] ∧ ret' = ret) ∨
    ∃ r, submissions tr = [r] ∧ ret' = r.ret := by
  cases h with
  | connected r => exact .inr ⟨r, rfl, rfl⟩
  | refused => exact .inl ⟨rfl, rfl⟩

theorem Reconnected.filter_isReconnect : ∃ c, tr.filter isReconnect = round c := by
  cases h with
  | connected r => exact ⟨true, rfl⟩
  | refused => exact ⟨false, rfl⟩

theorem Reconnected.isConnected (c : Bool) {u : List (Event Response)}
    (h' : ∀ d, Connected d u) : Connected c (tr ++ u) := by
  cases h with
  | connected r => exact ⟨rfl, h' true⟩
  | refused => exact h' false

end

theorem submissions_submitted (r : Submission) :
    submissions (submitted sqlChar r :: tr) = r :: submissions tr := rfl

theorem submissions_told (t : CString) : submissions (told t :: tr) = submissions tr := rfl

theorem submissions_append (tr tr' : List (Event Response)) :
    submissions (tr ++ tr') = submissions tr ++ submissions tr' :=
  List.filterMap_append

section

variable (h : Excuted sqlChar tr ret)
include h

theorem Excuted.isOf : ∀ e ∈ tr, IsOf sqlChar e := by
  cases h with
  | accepted => simp [submitted, IsOf]
  | failed => simp [submitted, told, IsOf]
  | once r t t' _ _ hrec =>
    simp only [List.forall_mem_cons]
    exact ⟨⟨rfl, rfl⟩, trivial, trivial, hrec.isOf⟩
  | twice r t t' t'' _ _ hrec _ hrec' =>
    simp only [List.forall_mem_cons, List.forall_mem_append]
    exact ⟨⟨rfl, rfl⟩, trivial, trivial, hrec.isOf, trivial, hrec'.isOf⟩

theorem Excuted.isConnected : Connected true tr := by
  cases h with
  | accepted => exact ⟨rfl, trivial⟩
  | failed => exact ⟨rfl, trivial⟩
  | once r t t' _ _ hrec =>
    have hc := hrec.isConnected true (u := []) fun _ => trivial
    rw [List.append_nil] at hc
    exact ⟨rfl, hc⟩
  | twice r t t' t'' _ _ hrec _ hrec' =>
    refine ⟨rfl, hrec.isConnected true fun d => ?_⟩
    have hc := hrec'.isConnected d (u := []) fun _ => trivial
    rw [List.append_nil] at hc
    exact hc

theorem Excuted.filter_isReconnect :
    ∃ cs : List Bool, cs.length ≤ 2 ∧ tr.filter isReconnect = cs.flatMap round := by
  cases h with
  | accepted => exact ⟨[], by simp, rfl⟩
  | failed => exact ⟨[], by simp, rfl⟩
  | once r t t' _ _ hrec =>
    obtain ⟨c, hc⟩ := hrec.filter_isReconnect
    exact ⟨[c], by simp, by simpa [submitted, told, isReconnect] using hc⟩
  | twice r t t' t'' _ _ hrec _ hrec' =>
    obtain ⟨c, hc⟩ := hrec.filter_isReconnect
    obtain ⟨c', hc'⟩ := hrec'.filter_isReconnect
    exact ⟨[c, c'], by simp, by simp [submitted, told, isReconnect, hc, hc']⟩

/-- All submissions but the last one are refused, and the last one says what is returned. -/
theorem Excuted.submissions : ∃ rs r, submissions tr = rs ++ [r] ∧ rs.length ≤ 2 ∧
    (∀ r ∈ rs, r.ret ≠ 0) ∧ (ret = 0 ↔ r.ret = 0) := by
  cases h with
  | accepted r hr => exact ⟨[], r, rfl, by simp, by simp, .rfl⟩
  | failed r t t' hr =>
    exact ⟨[], r, rfl, by simp, by simp, iff_of_false (errorCode_ne_zero hr t') hr⟩
  | once r t t' hr hlost hrec hlost' =>
    rcases hrec.submissions with ⟨-, rfl⟩ | ⟨r', hr', rfl⟩
    · simp [hlost] at hlost'
    · exact ⟨[r], r', congrArg _ hr', by simp, by simpa using hr, .rfl⟩
  | twice r t t' t'' hr hlost hrec hlost' hrec' =>
    have hret := ne_zero_of_isLost hlost'
    simp only [submissions_submitted, submissions_told, submissions_append]
    rcases hrec.submissions with ⟨hs, rfl⟩ | ⟨r', hs, rfl⟩ <;>
      rcases hrec'.submissions with ⟨hs', rfl⟩ | ⟨r'', hs', rfl⟩ <;> rw [hs, hs']
    · exact ⟨[], r, rfl, by simp, by simp, iff_of_false hret hr⟩
    · exact ⟨[r], r'', rfl, by simp, by simpa using hr, .rfl⟩
    · exact ⟨[r], r', rfl, by simp, by simpa using hr, .rfl⟩
    · exact ⟨[r, r'], r'', rfl, by simp, by simpa using ⟨hr, hret⟩, .rfl⟩

theorem Excuted.isAccepted : Accepted sqlChar tr ret := by
  obtain ⟨rs, r, hs, hlen, hne, hret⟩ := h.submissions
  refine ⟨h.isOf, ?_, ?_, h.isConnected, h.filter_isReconnect, ?_⟩
  · rw [hs, List.length_append, List.length_singleton]
    omega
  · simpa [hs] using hne
  · have hnil : rs.filter (·.ret = 0) = [] := by simpa [List.filter_eq_nil_iff] using hne
    rw [hret, hs, List.filter_append, hnil]
    by_cases hr : r.ret = 0 <;> simp [hr]

end

/-- Without their messages the two functions are the same. -/
theorem silent_excute (logged logged' : Bool) (first first' second second' : String) :
    (excute logged first second sqlChar).silent = (excute logged' first' second' sqlChar).silent := by
  have hlog (l : Bool) : (logSql l sqlChar).silent = pure () := by cases l <;> rfl
  have hprint (o : Message) : (Prog.print o : Client Unit).silent = pure () := rfl
  simp only [excute, reconnect, Prog.silent_bind, hlog, hprint, apply_ite Prog.silent]

/-- The calls of the two functions. -/
inductive Variant
  | excuteSql
  | excuteSql2
  deriving DecidableEq, Repr

def Variant.call : Variant → CString → Client ℤ
  | .excuteSql => Database.excuteSql
  | .excuteSql2 => Database.excuteSql2

theorem Variant.silent_call (v w : Variant) : (v.call sqlChar).silent = (w.call sqlChar).silent := by
  cases v <;> cases w <;> exact silent_excute ..

theorem Variant.excuted_of_path {v : Variant} (h : (v.call sqlChar).Path tr ret) :
    Excuted sqlChar tr ret := by
  cases v <;> exact .of_path h

/-- Calls in turn, from any state of the handle and whatever the client library answers:
    each accepts its statement at most once and says so, and the requests and the values are
    the same if all calls are calls of `excuteSql`. -/
theorem accepted_runAll (env : Env Response) (h : List (Event Response))
    (calls : List (Variant × CString)) :
    List.Forall₂ (fun c o => Accepted c.2 o.2 o.1) calls
        (Prog.runAll env h (calls.map fun c => c.1.call c.2)) ∧
      Prog.runAll env h (calls.map fun c => c.1.call c.2) =
        Prog.runAll env h (calls.map fun c => excuteSql c.2) := by
  constructor
  · have hpaths := Prog.forall₂_runAll env h (calls.map fun c => c.1.call c.2)
    rw [List.forall₂_map_left_iff] at hpaths
    exact hpaths.imp fun _ _ hp => (Variant.excuted_of_path hp).isAccepted
  · apply Prog.runAll_congr
    rw [List.map_map, List.map_map]
    exact List.map_congr_left fun c _ => Variant.silent_call c.1 .excuteSql

/-! ## Lost connections -/

/-- A submission fails with a lost connection. -/
def Submission.Lost (r : Submission) : Prop :=
  r.ret ≠ 0 ∧ (r.errno = crServerGoneError ∨ r.errno = crServerLost)

/-- What is documented of the client library: `mysql_real_query` returns 1 on any error,
    and `mysql_error` then gives the text of the error, as often as it is asked for. -/
structure Documented (env : Env Response) : Prop where
  ret : ∀ h s n, (env h (.query s n) : Submission).ret = 0 ∨ (env h (.query s n) : Submission).ret = 1
  gone : ∀ h s n (r : Submission) (es : List (Event Response)), r.ret ≠ 0 →
    r.errno = crServerGoneError → (∀ e ∈ es, e.1 = .error) →
    env (h ++ ⟨.query s n, r⟩ :: es) .error = goneAway
  lost : ∀ h s n (r : Submission) (es : List (Event Response)), r.ret ≠ 0 →
    r.errno = crServerLost → (∀ e ∈ es, e.1 = .error) →
    env (h ++ ⟨.query s n, r⟩ :: es) .error = lostConnection

/-- A reconnect round is next, and a submission if it connects. -/
def RoundFollows (sqlChar : CString) : List (Event Response) → Prop
  | ⟨.error, _⟩ :: tr => RoundFollows sqlChar tr
  | ⟨.close, _⟩ :: ⟨.init, _⟩ :: ⟨.connect, connected⟩ :: tr =>
    connected = true → ∃ r, (tr.head? = some (submitted sqlChar r))
  | _ => False

/-- After `n` rounds, a lost connection is followed by another one, up to two of them. -/
def Recovers (sqlChar : CString) : ℕ → List (Event Response) → Prop
  | _, [] => True
  | n, ⟨.query _ _, r⟩ :: tr =>
    (Submission.Lost r → n < 2 → RoundFollows sqlChar tr) ∧ Recovers sqlChar n tr
  | n, ⟨.connect, _⟩ :: tr => Recovers sqlChar (n + 1) tr
  | n, ⟨.error, _⟩ :: tr | n, ⟨.close, _⟩ :: tr | n, ⟨.init, _⟩ :: tr => Recovers sqlChar n tr

/-- The number of reconnect rounds. -/
def rounds (tr : List (Event Response)) : ℕ := tr.countP (·.1 == .connect)

/-- Lost connections are recovered, and a call ends with one only after two rounds. -/
structure Recovered (sqlChar : CString) (tr : List (Event Response)) : Prop where
  recovers : Recovers sqlChar 0 tr
  rounds_eq : ∀ r, (submissions tr).getLast? = some r → r.Lost → rounds tr = 2

section

variable (env : Env Response) (h : List (Event Response)) (sqlChar : CString)

/-- The first submission of a statement. -/
def firstSubmission : Submission :=
  env.answer h [] (.query sqlChar (.ofNat sqlChar.bytes.length))

/-- The text of its error, the second time it is asked for. -/
def firstError : CString :=
  env.answer h [.query sqlChar (.ofNat sqlChar.bytes.length), .error] .error

/-- Whether the first reconnect succeeds. -/
def firstConnect : Bool :=
  env.answer h [.query sqlChar (.ofNat sqlChar.bytes.length), .error, .error, .close, .init]
    .connect

/-- The submission after the first reconnect. -/
def secondSubmission : Submission :=
  env.answer h [.query sqlChar (.ofNat sqlChar.bytes.length), .error, .error, .close, .init,
    .connect] (.query sqlChar (.ofNat sqlChar.bytes.length))

/-- The first submission does not fail with `CR_SERVER_LOST`; and if it fails as a connection
    that is gone and the first reconnect succeeds, the connection is not lost again. -/
def Recoverable : Prop :=
  ¬((firstSubmission env h sqlChar).ret ≠ 0 ∧
      (firstSubmission env h sqlChar).errno = crServerLost) ∧
    ¬((firstSubmission env h sqlChar).ret ≠ 0 ∧ isGoneAway (firstError env h sqlChar) ∧
      firstConnect env h sqlChar ∧ (secondSubmission env h sqlChar).Lost)

end

theorem isGoneAway_goneAway : isGoneAway goneAway = true := by decide

theorem isGoneAway_lostConnection : isGoneAway lostConnection = false := by decide

variable {env : Env Response} {h : List (Event Response)} {r r' : Submission} {t t' : CString}
  {c : Bool}

theorem firstSubmission_eq (hg : env.Gives h (submitted sqlChar r :: tr)) :
    firstSubmission env h sqlChar = r :=
  (Env.Gives.eq_answer (u := []) hg).symm

theorem firstError_eq (hg : env.Gives h (submitted sqlChar r :: told t :: told t' :: tr)) :
    firstError env h sqlChar = t' :=
  (Env.Gives.eq_answer (u := [submitted sqlChar r, told t]) hg).symm

theorem firstConnect_eq
    (hg : env.Gives h (submitted sqlChar r :: told t :: told t' :: (round c ++ tr))) :
    firstConnect env h sqlChar = c :=
  (Env.Gives.eq_answer
    (u := [submitted sqlChar r, told t, told t', ⟨.close, ()⟩, ⟨.init, ()⟩]) hg).symm

theorem secondSubmission_eq (hg : env.Gives h
      (submitted sqlChar r :: told t :: told t' :: (round c ++ submitted sqlChar r' :: tr))) :
    secondSubmission env h sqlChar = r' :=
  (Env.Gives.eq_answer (u := [submitted sqlChar r, told t, told t'] ++ round c) hg).symm

/-- The second text of an error is documented. -/
theorem Documented.text (hdoc : Documented env) (hr : r.ret ≠ 0)
    (hg : env.Gives h (submitted sqlChar r :: told t :: told t' :: tr)) :
    (r.errno = crServerGoneError → isGoneAway t') ∧
      (r.errno = crServerLost → isGoneAway t' = false) := by
  obtain ⟨-, -, ht', -⟩ := hg
  rw [List.append_assoc] at ht'
  have hes : ∀ e ∈ [told t], e.1 = .error := by simp [told]
  constructor
  · intro he
    rw [show t' = goneAway from ht'.trans (hdoc.gone h _ _ r [told t] hr he hes)]
    exact isGoneAway_goneAway
  · intro he
    rw [show t' = lostConnection from ht'.trans (hdoc.lost h _ _ r [told t] hr he hes)]
    exact isGoneAway_lostConnection

/-- The values documented are not codes of errors. -/
theorem isLost_eq_false (h : ret = 0 ∨ ret = 1) : isLost ret = false := by
  rcases h with rfl | rfl <;> rfl

/-- As errors all return 1, the code of the first one is found out from its text only. -/
theorem Documented.isLost_errorCode (hdoc : Documented env)
    (hg : env.Gives h (submitted sqlChar r :: tr)) (t : CString) :
    isLost (errorCode r t) = isGoneAway t := by
  have hans : r = env h (.query sqlChar (.ofNat sqlChar.bytes.length)) := hg.1
  rw [errorCode]
  cases isGoneAway t with
  | true => rfl
  | false => exact isLost_eq_false (hans ▸ hdoc.ret h sqlChar (.ofNat sqlChar.bytes.length))

/-- A reconnect is made for the text of a connection that is gone, and so not for one that
    is lost. -/
theorem Documented.of_isLost (hdoc : Documented env) (hr : r.ret ≠ 0)
    (hg : env.Gives h (submitted sqlChar r :: told t :: told t' :: tr))
    (hlost : isLost (errorCode r t')) : isGoneAway t' ∧ r.errno ≠ crServerLost := by
  have ht' : isGoneAway t' := by rw [← hdoc.isLost_errorCode hg, hlost]
  refine ⟨ht', fun he => ?_⟩
  simpa [ht'] using (hdoc.text hr hg).2 he

/-- A call with one submission and no reconnect. -/
theorem recovered_failed :
    Recovered sqlChar [submitted sqlChar r, told t, told t'] ↔ ¬r.Lost := by
  constructor
  · exact fun hrec hl => hrec.recovers.1 hl Nat.zero_lt_two
  · intro hl
    refine ⟨⟨fun hl' => absurd hl' hl, trivial⟩, fun r' hr' hl' => ?_⟩
    obtain rfl : r = r' := Option.some.inj hr'
    exact absurd hl' hl

/-- A call with one reconnect, that connects. -/
theorem recovered_once : Recovered sqlChar
    (submitted sqlChar r :: told t :: told t' :: (round true ++ [submitted sqlChar r'])) ↔
      ¬r'.Lost := by
  constructor
  · exact fun hrec hl => hrec.recovers.2.1 hl Nat.one_lt_two
  · intro hl
    refine ⟨⟨fun _ _ _ => ⟨r', rfl⟩, fun hl' => absurd hl' hl, trivial⟩, fun r'' hr'' hl' => ?_⟩
    obtain rfl : r' = r'' := Option.some.inj hr''
    exact absurd hl' hl

/-- A call with two reconnects, the first of which does not connect. -/
theorem recovered_twice {t₁ t₂ : CString} (h : Reconnected sqlChar ret tr ret') :
    Recovered sqlChar (submitted sqlChar r :: told t :: told t' ::
      (round false ++ [told t₁] ++ told t₂ :: tr)) := by
  cases h with
  | connected r' =>
    exact ⟨⟨fun _ _ => nofun, fun _ hlt => absurd hlt (lt_irrefl 2), trivial⟩, fun _ _ _ => rfl⟩
  | refused text => exact ⟨⟨fun _ _ => nofun, trivial⟩, fun _ _ _ => rfl⟩

/-- Lost connections are recovered if and only if they are recoverable. -/
theorem recovered_iff (hdoc : Documented env) (h : List (Event Response)) (v : Variant)
    (sqlChar : CString) :
    Recovered sqlChar ((v.call sqlChar).run env h).2 ↔ Recoverable env h sqlChar := by
  have hpath := Variant.excuted_of_path (Prog.path_run env h (v.call sqlChar))
  have hg := Prog.gives_run env h (v.call sqlChar)
  generalize ((v.call sqlChar).run env h).2 = tr at hpath hg ⊢
  generalize ((v.call sqlChar).run env h).1 = ret at hpath
  rw [Recoverable]
  cases hpath with
  | accepted r hr =>
    rw [firstSubmission_eq hg]
    refine iff_of_true ⟨⟨fun hl => absurd hr hl.1, trivial⟩, fun r' hr' hl => ?_⟩ (by simp [hr])
    obtain rfl : r = r' := Option.some.inj hr'
    exact absurd hr hl.1
  | failed r t t' hr hlost =>
    -- the text is not that of a connection that is gone
    have ht' : isGoneAway t' = false := by rw [← hdoc.isLost_errorCode hg, hlost]
    have hgone : r.errno ≠ crServerGoneError := fun he => by
      simpa [ht'] using (hdoc.text hr hg).1 he
    rw [firstSubmission_eq hg, firstError_eq hg, recovered_failed, Submission.Lost]
    simp [hr, ht', hgone]
  | once r t t' hr hlost hrec hlost' =>
    obtain ⟨ht', hne⟩ := hdoc.of_isLost hr hg hlost
    cases hrec with
    | refused => simp [hlost] at hlost'
    | connected r' =>
      rw [firstSubmission_eq hg, firstError_eq hg, firstConnect_eq hg, secondSubmission_eq hg,
        recovered_once]
      simp [hr, ht', hne]
  | twice r t t' t'' hr hlost hrec hlost' hrec' =>
    obtain ⟨ht', hne⟩ := hdoc.of_isLost hr hg hlost
    cases hrec with
    | refused =>
      rw [List.append_assoc] at hg
      rw [firstSubmission_eq hg, firstConnect_eq hg]
      exact iff_of_true (recovered_twice hrec') (by simp [hne])
    | connected r' =>
      -- no submission returns the code of a lost connection
      rw [List.append_assoc] at hg
      have hret : r'.ret = 0 ∨ r'.ret = 1 := secondSubmission_eq hg ▸ hdoc.ret _ _ _
      simp [isLost_eq_false hret] at hlost'

/-! ## Two runs -/

/-- A client library that answers submissions from a list, always connects, and gives the
    text of the last error. -/
def library (rs : ℕ → Submission) : Env Response
  | h, .query _ _ => rs (submissions h).length
  | h, .error =>
    match (submissions h).getLast? with
    | some r =>
      if r.errno = crServerGoneError then goneAway
      else if r.errno = crServerLost then lostConnection
      else .empty
    | none => .empty
  | _, .close | _, .init => ()
  | _, .connect => true

/-- Asking for errors leaves the last submission the last one. -/
theorem getLast?_submissions {s : CString} {n : UInt32} {es : List (Event Response)}
    (hes : ∀ e ∈ es, e.1 = .error) :
    (submissions (h ++ ⟨.query s n, r⟩ :: es)).getLast? = some r := by
  have hnil : submissions es = [] := by
    refine List.filterMap_eq_nil_iff.2 fun e he => ?_
    obtain ⟨req, x⟩ := e
    obtain rfl : req = .error := hes _ he
    rfl
  have hcons : submissions (⟨.query s n, r⟩ :: es) = r :: submissions es := rfl
  rw [submissions_append, hcons, hnil, List.getLast?_append]
  rfl

theorem documented_library {rs : ℕ → Submission} (hrs : ∀ i, (rs i).ret = 0 ∨ (rs i).ret = 1) :
    Documented (library rs) := by
  refine ⟨fun h s n => hrs _, fun h s n r es hr he hes => ?_, fun h s n r es hr he hes => ?_⟩
  · simp only [library, getLast?_submissions hes, he]
    rfl
  · simp only [library, getLast?_submissions hes, he]
    rfl

/-- A connection that is gone is recovered. -/
theorem recovered_gone :
    Documented (library fun i => if i = 0 then ⟨1, crServerGoneError⟩ else ⟨0, 0⟩) ∧
    Recovered (.lit "SELECT 1") ((excuteSql (.lit "SELECT 1")).run
      (library fun i => if i = 0 then ⟨1, crServerGoneError⟩ else ⟨0, 0⟩) []).2 := by
  have hdoc : Documented (library fun i => if i = 0 then ⟨1, crServerGoneError⟩ else ⟨0, 0⟩) :=
    documented_library fun i => by by_cases hi : i = 0 <;> simp [hi]
  refine ⟨hdoc, (recovered_iff hdoc [] .excuteSql (.lit "SELECT 1")).2 ⟨?_, ?_⟩⟩
  · rintro ⟨-, hlost⟩
    revert hlost
    decide
  · rintro ⟨-, -, -, hlost, -⟩
    exact hlost rfl

/-- A connection that is lost is not. -/
theorem not_recovered_lost : ¬∀ (env : Env Response) (h : List (Event Response)) (v : Variant)
    (sqlChar : CString), Documented env → Recovered sqlChar ((v.call sqlChar).run env h).2 := by
  intro hall
  have hdoc : Documented (library fun _ => ⟨1, crServerLost⟩) := documented_library fun _ => .inr rfl
  have h := (hall _ [] .excuteSql (.lit "SELECT 1") hdoc).recovers
  exact h.1 ⟨by decide, .inr rfl⟩ Nat.zero_lt_two

end Database

end Cmqtt
