import AimChat.Base.Go
import AimChat.Lib.Text

/-! # The mailer

`Mailer.SendCode` of GoMailServer: the message it builds, the calls it makes of `net/smtp` and `crypto/tls`,
each with what is handed to it, and the error of the first that fails. A message is six lines joined with CRLF;
split there it is the same lines again when no line has a carriage return in it (`split_message`). What is handed
over is that message, to that address, as far as the calls come (`sendCode_carries`). -/

namespace AimChat.Mail

open Go

/-- `SMTPConfig` -/
structure SMTPConfig where
  host : Bytes
  port : Int
  username : Bytes
  password : Bytes
  /-- `From` -/
  fromAddr : Bytes
  useTLS : Bool
  deriving DecidableEq

/-- `smtp.PlainAuth("", username, password, host)` -/
structure PlainAuth where
  username : Bytes
  password : Bytes
  host : Bytes
  deriving DecidableEq

/-- A call of the mail library. -/
inductive SmtpCall
  | sendMail (addr : Bytes) (auth : PlainAuth) (fromAddr : Bytes) (toAddr : List Bytes) (msg : Bytes)
  | dial (addr serverName : Bytes)
  | newClient (host : Bytes)
  | auth (auth : PlainAuth)
  | mail (fromAddr : Bytes)
  | rcpt (toAddr : Bytes)
  | data
  | write (msg : Bytes)
  | close
  | quit
  deriving DecidableEq

/-- What `sendTLS` puts before the error of a call. -/
def SmtpCall.errorPrefix : SmtpCall → Bytes
  | .dial .. => str "连接SMTP服务器失败: "
  | .newClient _ => str "创建SMTP客户端失败: "
  | .auth _ => str "SMTP认证失败: "
  | _ => []

/-- The recipients a call names to the server. -/
def SmtpCall.recipients : SmtpCall → List Bytes
  | .sendMail _ _ _ toAddr _ => toAddr
  | .rcpt toAddr => [toAddr]
  | _ => []

/-- The messages a call hands over. -/
def SmtpCall.messages : SmtpCall → List Bytes
  | .sendMail _ _ _ _ msg => [msg]
  | .write msg => [msg]
  | _ => []

/-- What the calls come to: the text of the error of one that fails. -/
abbrev Smtp := SmtpCall → Option Bytes

/-- The calls one behind the other, up to the first that fails: those that are made, and the error. -/
def perform (smtp : Smtp) : List SmtpCall → List SmtpCall × Option Bytes
  | [] => ([], none)
  | call :: calls =>
      match smtp call with
      | some err => ([call], some (call.errorPrefix ++ err))
      | none => (call :: (perform smtp calls).1, (perform smtp calls).2)

/-- No call is made out of turn. -/
theorem perform_prefix (smtp : Smtp) (calls : List SmtpCall) : (perform smtp calls).1 <+: calls := by
  induction calls with
  | nil => exact List.prefix_rfl
  | cons call calls ih =>
      cases h : smtp call with
      | some err =>
          rw [perform, h]
          exact ⟨calls, rfl⟩
      | none =>
          rw [perform, h]
          exact List.cons_prefix_cons.2 ⟨rfl, ih⟩

/-- Unless one that is made fails all are. -/
theorem perform_of_succeed {smtp : Smtp} {calls : List SmtpCall}
    (h : ∀ call ∈ (perform smtp calls).1, smtp call = none) : perform smtp calls = (calls, none) := by
  induction calls with
  | nil => rfl
  | cons call calls ih =>
      cases hcall : smtp call with
      | some err =>
          rw [perform, hcall] at h
          exact absurd (h call (List.mem_singleton_self _)) (by simp [hcall])
      | none =>
          rw [perform, hcall] at h ⊢
          rw [ih fun c hc => h c (List.mem_cons_of_mem _ hc)]

namespace Mailer

/-- `subject` -/
def subject : Bytes := str "您的注册验证码"

/-- `body` -/
def body (code : Bytes) (ttlMinutes : Int) : Bytes :=
  str "您的验证码是 " ++ code ++ str "，" ++ printInt ttlMinutes ++ str " 分钟内有效，请勿泄露给他人。"

/-- The lines of the message. -/
def lines (cfg : SMTPConfig) (toAddr code : Bytes) (ttlMinutes : Int) : List Bytes :=
  [str "From: " ++ cfg.fromAddr,
    str "To: " ++ toAddr,
    str "Subject: " ++ subject,
    str "Content-Type: text/plain; charset=UTF-8",
    [],
    body code ttlMinutes]

/-- `msg`, the lines joined with CRLF. -/
def message (cfg : SMTPConfig) (toAddr code : Bytes) (ttlMinutes : Int) : Bytes :=
  Text.join 13 10 (lines cfg toAddr code ttlMinutes)

/-- `addr` -/
def addr (cfg : SMTPConfig) : Bytes := cfg.host ++ str ":" ++ printInt cfg.port

/-- `auth` -/
def auth (cfg : SMTPConfig) : PlainAuth := ⟨cfg.username, cfg.password, cfg.host⟩

/-- The calls of `sendTLS(addr, auth, to, msg)`. -/
def sendTLS (cfg : SMTPConfig) (toAddr msg : Bytes) : List SmtpCall :=
  [.dial (addr cfg) cfg.host, .newClient cfg.host, .auth (auth cfg), .mail cfg.fromAddr, .rcpt toAddr, .data,
    .write msg, .close, .quit]

/-- The calls a message is sent with. -/
def calls (cfg : SMTPConfig) (toAddr msg : Bytes) : List SmtpCall :=
  if cfg.useTLS then sendTLS cfg toAddr msg else [.sendMail (addr cfg) (auth cfg) cfg.fromAddr [toAddr] msg]

/-- `SendCode(to, code, ttlMinutes)`: the calls it makes, and the text of its error. -/
def sendCode (cfg : SMTPConfig) (toAddr code : Bytes) (ttlMinutes : Int) (smtp : Smtp) :
    List SmtpCall × Option Bytes :=
  if cfg.host = [] then ([], some (str "SMTP 未配置"))
  else perform smtp (calls cfg toAddr (message cfg toAddr code ttlMinutes))

/-! ## What goes to the server -/

/-- One recipient is named to the server, by either way. -/
theorem recipients_calls (cfg : SMTPConfig) (toAddr msg : Bytes) :
    (calls cfg toAddr msg).flatMap SmtpCall.recipients = [toAddr] := by
  unfold calls
  split_ifs <;> rfl

/-- One message is handed over. -/
theorem messages_calls (cfg : SMTPConfig) (toAddr msg : Bytes) :
    (calls cfg toAddr msg).flatMap SmtpCall.messages = [msg] := by
  unfold calls
  split_ifs <;> rfl

/-! ## The lines of a message -/

/-- No character of the text ends a line. -/
def NoLineEnd (text : Bytes) : Prop := ∀ b ∈ text, b ≠ 13 ∧ b ≠ 10

instance (text : Bytes) : Decidable (NoLineEnd text) := List.decidableBAll _ text

theorem NoLineEnd.append {s t : Bytes} (hs : NoLineEnd s) (ht : NoLineEnd t) : NoLineEnd (s ++ t) := by
  intro b hb
  rcases List.mem_append.1 hb with hb | hb
  · exact hs b hb
  · exact ht b hb

/-- A text of digits has no line end. -/
theorem noLineEnd_of_digits {text : Bytes} (h : ∀ b ∈ text, isDigit b = true) : NoLineEnd text := by
  intro b hb
  constructor <;>
  · rintro rfl
    exact absurd (h _ hb) (by decide)

theorem noLineEnd_printInt (n : Int) : NoLineEnd (printInt n) := by
  intro b hb
  rcases mem_printInt hb with rfl | ⟨hle, -⟩
  · decide
  · constructor <;>
    · rintro rfl
      exact absurd hle (by decide)

variable {cfg : SMTPConfig} {toAddr code : Bytes} {ttlMinutes : Int}

/-- No line of a message has a line end in it, unless the address, the code or the sender has. -/
theorem noLineEnd_lines (hfrom : NoLineEnd cfg.fromAddr) (hto : NoLineEnd toAddr) (hcode : NoLineEnd code) :
    ∀ line ∈ lines cfg toAddr code ttlMinutes, NoLineEnd line := by
  have hsubject : NoLineEnd (str "Subject: " ++ subject) := by decide +kernel
  have hcontentType : NoLineEnd (str "Content-Type: text/plain; charset=UTF-8") := by decide +kernel
  have hbody : NoLineEnd (body code ttlMinutes) := by
    have h₁ : NoLineEnd (str "您的验证码是 ") := by decide +kernel
    have h₂ : NoLineEnd (str "，") := by decide +kernel
    have h₃ : NoLineEnd (str " 分钟内有效，请勿泄露给他人。") := by decide +kernel
    exact (((h₁.append hcode).append h₂).append (noLineEnd_printInt _)).append h₃
  have hFrom : NoLineEnd (str "From: ") := by decide +kernel
  have hTo : NoLineEnd (str "To: ") := by decide +kernel
  simp only [lines, List.forall_mem_cons]
  exact ⟨hFrom.append hfrom, hTo.append hto, hsubject, hcontentType, by decide, hbody,
    fun _ h => absurd h List.not_mem_nil⟩

/-- Split at CRLF a message is its lines. -/
theorem split_message (ttlMinutes : Int) (hfrom : NoLineEnd cfg.fromAddr) (hto : NoLineEnd toAddr)
    (hcode : NoLineEnd code) :
    Text.split 13 10 (message cfg toAddr code ttlMinutes) = lines cfg toAddr code ttlMinutes :=
  Text.split_join (List.cons_ne_nil _ _) fun line hline h13 =>
    (noLineEnd_lines hfrom hto hcode line hline 13 h13).1 rfl

/-! ## What is handed over -/

/-- What the calls carry: a message they hand over is, split at CRLF, the six lines and nothing else, a
recipient they name is the address, and unless one of them fails there is one of each. -/
structure Carries (cfg : SMTPConfig) (toAddr code : Bytes) (ttlMinutes : Int) (smtp : Smtp)
    (made : List SmtpCall) : Prop where
  lines : ∀ msg ∈ made.flatMap SmtpCall.messages,
    Text.split 13 10 msg =
      [str "From: " ++ cfg.fromAddr, str "To: " ++ toAddr, str "Subject: " ++ subject,
        str "Content-Type: text/plain; charset=UTF-8", [], body code ttlMinutes]
  noLineEnd : ∀ msg ∈ made.flatMap SmtpCall.messages, ∀ line ∈ Text.split 13 10 msg, NoLineEnd line
  recipients : ∀ addr ∈ made.flatMap SmtpCall.recipients, addr = toAddr
  once : (∀ call ∈ made, smtp call = none) →
    made.flatMap SmtpCall.recipients = [toAddr] ∧ (made.flatMap SmtpCall.messages).length = 1

/-- A configured mailer hands over the lines it was given, to the address it was given. -/
theorem sendCode_carries (ttlMinutes : Int) (smtp : Smtp) (hhost : cfg.host ≠ []) (hfrom : NoLineEnd cfg.fromAddr)
    (hto : NoLineEnd toAddr) (hcode : NoLineEnd code) :
    Carries cfg toAddr code ttlMinutes smtp (sendCode cfg toAddr code ttlMinutes smtp).1 := by
  rw [sendCode, if_neg hhost]
  have hmade := perform_prefix smtp (calls cfg toAddr (message cfg toAddr code ttlMinutes))
  -- what is handed over by some of the calls is handed over by all of them
  have hmessage : ∀ msg ∈ (perform smtp (calls cfg toAddr (message cfg toAddr code ttlMinutes))).1.flatMap
      SmtpCall.messages, msg = message cfg toAddr code ttlMinutes := by
    intro msg hmsg
    have hall := (hmade.flatMap _).subset hmsg
    rwa [messages_calls, List.mem_singleton] at hall
  have hsplit := split_message ttlMinutes hfrom hto hcode
  refine ⟨fun msg hmsg => ?_, fun msg hmsg => ?_, fun addr haddr => ?_, fun hsucceed => ?_⟩
  · rw [hmessage msg hmsg, hsplit]
    rfl
  · rw [hmessage msg hmsg, hsplit]
    exact noLineEnd_lines hfrom hto hcode
  · have hall := (hmade.flatMap _).subset haddr
    rwa [recipients_calls, List.mem_singleton] at hall
  · rw [perform_of_succeed hsucceed, recipients_calls, messages_calls]
    exact ⟨rfl, rfl⟩

end Mailer

end AimChat.Mail
