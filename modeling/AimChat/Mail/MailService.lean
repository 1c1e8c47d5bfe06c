import AimChat.Mail.CodeStore
import AimChat.Mail.Mailer
import AimChat.Server.GrpcClients

/-! # The mail service

`MailService` of GoMailServer in front of the code store and the mailer. What `emailPattern` lets through has no
line end in it, so what `SendCode` hands over to such an address is the lines of the mailer, and nothing goes to
another address (`message_of_emailPattern`).
`SendCode` draws the code, and stores it, before it knows whether the mail can be sent: a failed send leaves the
store as it was only if it held that very entry (`costsNothing_iff`). -/

namespace AimChat.Mail

open Go

/-! ## Addresses -/

/-- The bytes of `[^\s@]`. The bytes of a character outside ASCII are among them. -/
def notSpaceOrAt : List UInt8 :=
  ((List.range 256).map UInt8.ofNat).filter fun b => b ∉ ([9, 10, 12, 13, 32, 64] : List UInt8)

/-- `emailPattern`: `^[^\s@]+@[^\s@]+\.[^\s@]+$` -/
def emailPattern : RegularExpression UInt8 :=
  let part := Text.oneOrMore (Text.oneOf notSpaceOrAt)
  part * .char 64 * part * .char 46 * part

theorem mem_notSpaceOrAt {b : UInt8} : b ∈ notSpaceOrAt ↔ b ∉ ([9, 10, 12, 13, 32, 64] : List UInt8) := by
  rw [notSpaceOrAt, List.mem_filter, decide_eq_true_iff]
  refine and_iff_right (List.mem_map.2 ⟨b.toNat, List.mem_range.2 b.toNat_lt, ?_⟩)
  exact UInt8.ofNat_toNat

/-- A part of an address: not empty, without blanks and without an at sign. -/
def IsPart (s : Bytes) : Prop := s ≠ [] ∧ ∀ b ∈ s, b ∉ ([9, 10, 12, 13, 32, 64] : List UInt8)

instance (s : Bytes) : Decidable (IsPart s) := @instDecidableAnd _ _ inferInstance (List.decidableBAll _ s)

/-- **What the pattern matches**: three parts, with an at sign and a dot between them. -/
theorem emailPattern_iff {email : Bytes} :
    emailPattern.rmatch email = true ↔
      ∃ a b c, IsPart a ∧ IsPart b ∧ IsPart c ∧ email = a ++ 64 :: b ++ 46 :: c := by
  have hpart : ∀ s, (Text.oneOrMore (Text.oneOf notSpaceOrAt)).rmatch s ↔ IsPart s := fun s => by
    rw [Text.oneOrMore_oneOf_iff]
    simp only [mem_notSpaceOrAt, IsPart]
  simp only [emailPattern, RegularExpression.mul_rmatch_iff, RegularExpression.char_rmatch_iff, hpart]
  constructor
  · rintro ⟨-, c, rfl, ⟨-, -, rfl, ⟨-, b, rfl, ⟨a, -, rfl, ha, rfl⟩, hb⟩, rfl⟩, hc⟩
    exact ⟨a, b, c, ha, hb, hc, by simp⟩
  · rintro ⟨a, b, c, ha, hb, hc, rfl⟩
    exact ⟨_, c, by simp, ⟨_, _, rfl, ⟨_, b, rfl, ⟨a, _, rfl, ha, rfl⟩, hb⟩, rfl⟩, hc⟩

theorem emailPattern_short : emailPattern.rmatch (str "a@b.c") = true :=
  emailPattern_iff.2 ⟨str "a", str "b", str "c", by decide, by decide, by decide, by decide⟩

/-- An address that is let through has no line end in it. -/
theorem noLineEnd_of_emailPattern {email : Bytes} (h : emailPattern.rmatch email = true) :
    Mailer.NoLineEnd email := by
  obtain ⟨a, b, c, ha, hb, hc, rfl⟩ := emailPattern_iff.1 h
  have hpart : ∀ {s}, IsPart s → Mailer.NoLineEnd s := fun hs b hb => by
    have hnot := hs.2 b hb
    simp only [List.mem_cons, not_or] at hnot
    exact ⟨hnot.2.2.2.1, hnot.2.1⟩
  have hsep : ∀ {s : Bytes} {x : UInt8}, Mailer.NoLineEnd [x] → Mailer.NoLineEnd s → Mailer.NoLineEnd (x :: s) :=
    fun hx hs => hx.append hs
  exact ((hpart ha).append (hsep (by decide) (hpart hb))).append (hsep (by decide) (hpart hc))

/-! ## The service -/

/-- `MailService` -/
structure MailService where
  store : CodeStore
  /-- The configuration of the mailer. -/
  smtp : SMTPConfig
  /-- `cfg.TTL` -/
  ttl : Duration

/-- `int(d.Minutes())`, the minutes taken exactly. -/
def minutes (d : Duration) : Int := d.ns.tdiv 60000000000

namespace MailService

/-- `SendCode(req)`: the answer, the service, and the calls the mailer makes. -/
def sendCode (email : Bytes) (now : Int) (rand : Nat → Option Nat) (smtp : Smtp) (sv : MailService) :
    SendCodeRsp × MailService × List SmtpCall :=
  if !emailPattern.rmatch email then ({ code := 2, msg := str "邮箱格式不正确" }, sv, [])
  else
    let (g, store) := sv.store.generate email now rand
    -- the store has the code from here on
    let sv := { sv with store := store }
    if !g.ok then
      ({ code := 1, msg := str "发送过于频繁，请稍后再试", cooldownSeconds := wrap32 g.cooldownRemaining }, sv, [])
    else
      match Mailer.sendCode sv.smtp email g.code (minutes sv.ttl) smtp with
      | (made, some err) => ({ code := 3, msg := str "邮件发送失败: " ++ err }, sv, made)
      | (made, none) => ({ code := 0, msg := str "验证码已发送" }, sv, made)

/-- `VerifyCode(req)` -/
def verifyCode (email code : Bytes) (now : Int) (sv : MailService) : VerifyCodeRsp × MailService :=
  let (ok, store) := sv.store.verify email code now
  (if !ok then { code := 1, msg := str "验证码错误或已过期" } else { code := 0, msg := str "ok" },
    { sv with store := store })

/-! ## The exits of `SendCode` -/

section Exits

variable {email : Bytes} {now : Int} {rand : Nat → Option Nat} (smtp : Smtp) {sv : MailService}

theorem sendCode_of_not_match (h : emailPattern.rmatch email = false) :
    sv.sendCode email now rand smtp = ({ code := 2, msg := str "邮箱格式不正确" }, sv, []) := by
  rw [sendCode, h]
  rfl

variable (hmatch : emailPattern.rmatch email = true)
include hmatch

/-- The calls are those of the mailer, with the address and the code drawn. -/
theorem sendCode_made (hok : (sv.store.generate email now rand).1.ok = true) :
    (sv.sendCode email now rand smtp).2.2 =
      (Mailer.sendCode sv.smtp email (sv.store.generate email now rand).1.code (minutes sv.ttl) smtp).1 := by
  rw [sendCode, hmatch]
  rcases h : Mailer.sendCode sv.smtp email (sv.store.generate email now rand).1.code (minutes sv.ttl) smtp with
    ⟨made, _ | err⟩ <;> simp [hok, h]

/-- Within the cooldown the store is left alone. -/
theorem sendCode_of_refused {remaining : Int}
    (h : sv.store.generate email now rand = ({ ok := false, cooldownRemaining := remaining }, sv.store)) :
    sv.sendCode email now rand smtp =
      ({ code := 1, msg := str "发送过于频繁，请稍后再试", cooldownSeconds := wrap32 remaining }, sv, []) := by
  rw [sendCode, hmatch, h]
  rfl

variable (hissued : sv.store.generate email now rand = sv.store.issue email now rand)
include hissued

variable {made : List SmtpCall}

/-- Otherwise a code is drawn and stored, and the mailer sends it. -/
theorem sendCode_of_sent
    (hsent : Mailer.sendCode sv.smtp email (randomDigits sv.store.digits rand) (minutes sv.ttl) smtp =
      (made, none)) :
    sv.sendCode email now rand smtp =
      ({ code := 0, msg := str "验证码已发送" },
        { sv with store := (sv.store.issue email now rand).2 }, made) := by
  rw [sendCode, hmatch, hissued]
  simp [hsent]

/-- Or does not. -/
theorem sendCode_of_failed {err : Bytes}
    (hfailed : Mailer.sendCode sv.smtp email (randomDigits sv.store.digits rand) (minutes sv.ttl) smtp =
      (made, some err)) :
    sv.sendCode email now rand smtp =
      ({ code := 3, msg := str "邮件发送失败: " ++ err },
        { sv with store := (sv.store.issue email now rand).2 }, made) := by
  rw [sendCode, hmatch, hissued]
  simp [hfailed]

end Exits

/-! ## What is handed over to an address that is let through -/

/-- **No header can be put in through the address.** Of an address that is let through and a code of digits the
mailer hands over the four header lines, an empty line and the body, with the address all of its line, and names
no other recipient; and `SendCode` hands to the mailer the address it was asked for, or makes no call. -/
theorem message_of_emailPattern {email code : Bytes} {cfg : SMTPConfig} (hemail : emailPattern.rmatch email = true)
    (hcode : ∀ b ∈ code, isDigit b = true) (hfrom : ∀ b ∈ cfg.fromAddr, b ≠ 13 ∧ b ≠ 10) (hhost : cfg.host ≠ [])
    (ttlMinutes : Int) (smtp : Smtp) :
    Mailer.Carries cfg email code ttlMinutes smtp (Mailer.sendCode cfg email code ttlMinutes smtp).1 ∧
      ∀ (sv : MailService) now rand, sv.smtp = cfg →
        ((sv.store.generate email now rand).1.ok = true → (sv.store.generate email now rand).1.code = code →
            Mailer.Carries cfg email code (minutes sv.ttl) smtp (sv.sendCode email now rand smtp).2.2) ∧
          ((sv.store.generate email now rand).1.ok = false → (sv.sendCode email now rand smtp).2.2 = []) := by
  have hto := noLineEnd_of_emailPattern hemail
  have hdigits := Mailer.noLineEnd_of_digits hcode
  refine ⟨Mailer.sendCode_carries ttlMinutes smtp hhost hfrom hto hdigits, ?_⟩
  rintro sv now rand rfl
  refine ⟨fun hok hdrawn => ?_, fun hrefused => ?_⟩
  · rw [sendCode_made smtp hemail hok, hdrawn]
    exact Mailer.sendCode_carries (minutes sv.ttl) smtp hhost hfrom hto hdigits
  · rw [sendCode, hemail]
    simp [hrefused]

/-- One service, for three digits and five minutes. -/
def threeDigits : MailService :=
  ⟨.new (.secs 300 (by decide)) (.secs 60 (by decide)) 3, ⟨str "mail", 465, [], [], str "x@y.z", true⟩,
    .secs 300 (by decide)⟩

/-- When the code drawn is 042 and every call succeeds, the message and the address have gone out; when the client
cannot be made, nothing has. -/
theorem message_of_emailPattern_short :
    (∀ smtp, Mailer.Carries threeDigits.smtp (str "a@b.c") (str "042") 5 smtp
        (threeDigits.sendCode (str "a@b.c") 0 (fun _ => some 42) smtp).2.2) ∧
      (threeDigits.sendCode (str "a@b.c") 0 (fun _ => some 42) fun _ => none).2.2.flatMap SmtpCall.recipients =
        [str "a@b.c"] ∧
      (threeDigits.sendCode (str "a@b.c") 0 (fun _ => some 42) fun call =>
        if call = .newClient (str "mail") then some (str "EOF") else none).2.2.flatMap SmtpCall.messages = [] := by
  refine ⟨fun smtp => ?_, by decide +kernel, by decide +kernel⟩
  have hmade := (@message_of_emailPattern _ (str "042") threeDigits.smtp emailPattern_short (by decide +kernel)
    (by decide +kernel) (by decide +kernel) 5 smtp).2 threeDigits 0 (fun _ => some 42) rfl
  exact hmade.1 (by decide +kernel) (by decide +kernel)

/-! ## What a failed send costs -/

/-- When the mailer fails the store is as it was: a code that was good is still good, and a retry that the
cooldown would not have refused is not refused. -/
def CostsNothing (email : Bytes) (now : Int) (rand : Nat → Option Nat) (smtp : Smtp) (sv : MailService) : Prop :=
  (sv.sendCode email now rand smtp).1.code = 3 →
    (sv.sendCode email now rand smtp).2.1.store = sv.store ∧
      (∀ code now', (sv.verifyCode email code now').1.code = 0 →
        ((sv.sendCode email now rand smtp).2.1.verifyCode email code now').1.code = 0) ∧
      ∀ rand' smtp', (sv.sendCode email now rand' smtp').1.code ≠ 1 →
        ((sv.sendCode email now rand smtp).2.1.sendCode email now rand' smtp').1.code ≠ 1

/-- The same service answers the same. -/
theorem costsNothing_of_eq {email : Bytes} {now : Int} {rand : Nat → Option Nat} {smtp : Smtp}
    {sv : MailService} (h : (sv.sendCode email now rand smtp).2.1 = sv) :
    CostsNothing email now rand smtp sv := by
  intro _
  rw [h]
  exact ⟨rfl, fun _ _ h => h, fun _ _ h => h⟩

/-- A code that is issued changes the store, unless the entry was that very one. -/
theorem issue_eq_self_iff {email : Bytes} {now : Int} {rand : Nat → Option Nat} {s : CodeStore} :
    (s.issue email now rand).2 = s ↔
      s.codes email = some ⟨randomDigits s.digits rand, Time.add now s.ttl, now⟩ := by
  constructor
  · intro h
    rw [← CodeStore.issue_codes_self email now rand s, h]
  · intro h
    rw [CodeStore.issue, ← h, Function.update_eq_self]

/-- **A failed send costs nothing if and only if** the address is turned down, the cooldown refuses it, the
mailer does not fail, or the entry it writes was there before. -/
theorem costsNothing_iff (email : Bytes) (now : Int) (rand : Nat → Option Nat) (smtp : Smtp) (sv : MailService) :
    CostsNothing email now rand smtp sv ↔
      emailPattern.rmatch email = false ∨
        (∃ entry, sv.store.codes email = some entry ∧
          (Time.sub now entry.lastSent).ns < sv.store.cool.ns) ∨
        (Mailer.sendCode sv.smtp email (randomDigits sv.store.digits rand) (minutes sv.ttl) smtp).2 = none ∨
        sv.store.codes email =
          some ⟨randomDigits sv.store.digits rand, Time.add now sv.store.ttl, now⟩ := by
  cases hmatch : emailPattern.rmatch email with
  | false =>
      refine iff_of_true (costsNothing_of_eq ?_) (.inl rfl)
      rw [sendCode_of_not_match smtp hmatch]
  | true =>
      rw [or_iff_right Bool.false_ne_true.symm]
      rcases CodeStore.generate_cases email now rand sv.store with
        ⟨hissued, hcool⟩ | ⟨entry, remaining, hentry, hcool, hrefused⟩
      · have hcooled : ¬ ∃ entry, sv.store.codes email = some entry ∧
            (Time.sub now entry.lastSent).ns < sv.store.cool.ns := by
          rintro ⟨entry, hentry, hlt⟩
          exact absurd hlt (not_lt.2 (hcool entry hentry))
        rw [or_iff_right hcooled]
        rcases hsent : Mailer.sendCode sv.smtp email (randomDigits sv.store.digits rand) (minutes sv.ttl) smtp with
          ⟨made, _ | err⟩
        · refine iff_of_true (fun h3 => ?_) (.inl rfl)
          rw [sendCode_of_sent smtp hmatch hissued hsent] at h3
          exact absurd h3 (by simp)
        · have hfailed := sendCode_of_failed smtp hmatch hissued hsent
          rw [or_iff_right (Option.some_ne_none _), ← issue_eq_self_iff]
          constructor
          · intro h
            have hstore := (h (by rw [hfailed])).1
            rwa [hfailed] at hstore
          · intro h
            refine costsNothing_of_eq ?_
            rw [hfailed]
            dsimp only
            rw [h]
      · refine iff_of_true (costsNothing_of_eq ?_) (.inl ⟨entry, hentry, hcool⟩)
        rw [sendCode_of_refused smtp hmatch hrefused]

/-- Without a configured mailer the first code for an address is not sent, and the second one is refused. -/
theorem not_costsNothing_unconfigured :
    ¬ CostsNothing (str "a@b.c") 0 (fun _ => some 7) (fun _ => none)
        ⟨.new (.secs 300 (by decide)) (.secs 60 (by decide)) 6, ⟨[], 465, [], [], [], true⟩,
          .secs 300 (by decide)⟩ := by
  intro h
  have hfailed : ∀ rand, sendCode (str "a@b.c") 0 rand (fun _ => none)
      ⟨.new (.secs 300 (by decide)) (.secs 60 (by decide)) 6, ⟨[], 465, [], [], [], true⟩,
        .secs 300 (by decide)⟩ = _ := fun rand =>
    sendCode_of_failed _ emailPattern_short rfl rfl
  have hretry := (h (by rw [hfailed])).2.2 (fun _ => some 8) (fun _ => none) (by rw [hfailed]; decide)
  rw [hfailed, sendCode_of_refused _ emailPattern_short rfl] at hretry
  exact hretry rfl

end MailService

end AimChat.Mail
