import AimChat.Base.Decimal
import AimChat.Lib.SqlText
import AimChat.Store.UserTable

/-! # The texts of the statements

`UserManager` puts the texts clients send between quotes after doubling the quotes in them
(`EscapeSqlString`), and `MySQLTool::Execute` sends the statement as a C string. MySQL also reads
backslashes in a literal, which nothing doubles, and the C string ends at a NUL: a text comes through,
and leaves the rest of the statement alone, exactly when it has neither (`Harmless`). -/

namespace AimChat

open Sql

/-- A text without NUL in which every backslash stands before `%` or `_`, where MySQL keeps it. -/
def Harmless (s : Bytes) : Prop :=
  0 ∉ s ∧ ∀ i : Nat, s[i]? = some 92 → s[i + 1]? = some 37 ∨ s[i + 1]? = some 95

/-- What MySQL reads behind the opening quote of `'" << EscapeSqlString(s) << "'` with `rest` behind it,
when the statement is sent. -/
def readEscaped (s rest : Bytes) : Option (Bytes × Bytes) :=
  readLiteral (cStr (escapeSqlString s ++ 39 :: rest))

/-- The text a quote, `EscapeSqlString(s)`, a quote is one literal of value `s`, and what stands behind it
in the statement (not with another quote) stays. -/
def CarriesValue (s : Bytes) : Prop :=
  ∀ rest : Bytes, rest.head? ≠ some 39 → readEscaped s rest = some (s, cStr rest)

/-! ## Escaping -/

@[simp] theorem escapeSqlString_nil : escapeSqlString [] = [] := rfl

@[simp] theorem escapeSqlString_quote (s : Bytes) :
    escapeSqlString (39 :: s) = 39 :: 39 :: escapeSqlString s := rfl

theorem escapeSqlString_cons {c : UInt8} (hc : c ≠ 39) (s : Bytes) :
    escapeSqlString (c :: s) = c :: escapeSqlString s := by
  rw [escapeSqlString, List.flatMap_cons, if_neg hc]
  rfl

/-! ## C strings -/

@[simp] theorem cStr_nil : cStr [] = [] := rfl

@[simp] theorem cStr_zero (s : Bytes) : cStr (0 :: s) = [] := rfl

theorem cStr_cons {c : UInt8} (hc : c ≠ 0) (s : Bytes) : cStr (c :: s) = c :: cStr s :=
  List.takeWhile_cons_of_pos (decide_eq_true hc)

/-- A C string goes on behind a text without NUL. -/
theorem cStr_append {s : Bytes} (hs : 0 ∉ s) (t : Bytes) : cStr (s ++ t) = s ++ cStr t :=
  List.takeWhile_append_of_pos fun _ hc => decide_eq_true fun h0 => hs (h0 ▸ hc)

theorem head?_cStr_ne {s : List UInt8} {c : UInt8} (h : s.head? ≠ some c) : (cStr s).head? ≠ some c := by
  cases s with
  | nil => exact h
  | cons b s =>
      by_cases hb : b = 0
      · rw [hb, cStr_zero]
        exact nofun
      · rw [cStr_cons hb]
        exact h

/-! ## Harmless texts -/

/-- The first byte of a harmless text, and the rest. -/
theorem harmless_cons {c : UInt8} {s : Bytes} :
    Harmless (c :: s) ↔
      c ≠ 0 ∧ (c = 92 → s.head? = some 37 ∨ s.head? = some 95) ∧ Harmless s := by
  unfold Harmless
  rw [List.mem_cons, not_or, List.head?_eq_getElem?, ← Nat.and_forall_add_one, ne_comm]
  simp only [List.getElem?_cons_zero, List.getElem?_cons_succ, Option.some.injEq, Nat.zero_add, ne_eq]
  tauto

@[simp] theorem harmless_nil : Harmless [] := ⟨List.not_mem_nil, fun _ h => by cases h⟩

/-! ## Reading an escaped text -/

section

variable {rest : Bytes}

theorem readEscaped_nil (hrest : rest.head? ≠ some 39) : readEscaped [] rest = some ([], cStr rest) := by
  rw [readEscaped, escapeSqlString_nil, List.nil_append, cStr_cons (by decide)]
  exact readLiteral_end (head?_cStr_ne hrest)

@[simp] theorem readEscaped_zero (s rest : Bytes) : readEscaped (0 :: s) rest = none := by
  rw [readEscaped, escapeSqlString_cons (by decide), List.cons_append, cStr_zero, readLiteral_nil]

/-- A byte that is neither NUL nor a backslash is read back, a quote from the two it was doubled to. -/
theorem readEscaped_cons {c : UInt8} (h0 : c ≠ 0) (hbackslash : c ≠ 92) (s rest : Bytes) :
    readEscaped (c :: s) rest = (readEscaped s rest).map (Prod.map (c :: ·) id) := by
  by_cases hquote : c = 39
  · rw [hquote, readEscaped, escapeSqlString_quote, List.cons_append, List.cons_append,
      cStr_cons (by decide), cStr_cons (by decide), readLiteral_quotes, readEscaped]
  · rw [readEscaped, escapeSqlString_cons hquote, List.cons_append, cStr_cons h0,
      readLiteral_other hquote hbackslash, readEscaped]

/-- A backslash takes the byte behind it along. -/
theorem readEscaped_backslash {c : UInt8} (h0 : c ≠ 0) (hquote : c ≠ 39) (s rest : Bytes) :
    readEscaped (92 :: c :: s) rest = (readEscaped s rest).map (Prod.map (unescape c ++ ·) id) := by
  rw [readEscaped, escapeSqlString_cons (by decide), escapeSqlString_cons hquote, List.cons_append,
    List.cons_append, cStr_cons (by decide), cStr_cons h0, readLiteral_backslash, readEscaped]

/-- A backslash before a quote, the text's own or the closing one, or before a NUL is lost: the value
does not begin with a backslash. -/
theorem readEscaped_backslash_lost {s : Bytes} (hs : ∀ c ∈ s.head?, c = 0 ∨ c = 39) {v r : Bytes}
    (h : readEscaped (92 :: s) rest = some (v, r)) : v.head? = some 39 := by
  have hquote : ∀ text : Bytes, readLiteral (92 :: 39 :: text) = some (v, r) → v.head? = some 39 := by
    intro text htext
    rw [readLiteral_backslash, Option.map_eq_some_iff] at htext
    obtain ⟨⟨v', r'⟩, -, heq⟩ := htext
    cases heq
    rfl
  rw [readEscaped, escapeSqlString_cons (by decide), List.cons_append, cStr_cons (by decide)] at h
  cases s with
  | nil =>
      rw [escapeSqlString_nil, List.nil_append, cStr_cons (by decide)] at h
      exact hquote _ h
  | cons c s =>
      rcases hs c rfl with rfl | rfl
      · rw [escapeSqlString_cons (by decide), List.cons_append, cStr_zero, readLiteral_lone_backslash] at h
        cases h
      · rw [escapeSqlString_quote, List.cons_append, cStr_cons (by decide)] at h
        exact hquote _ h

/-- What an escape stands for begins with a backslash in three cases only. -/
theorem head?_unescape {c : UInt8} {v : Bytes} (h : (unescape c ++ v).head? = some 92) :
    c = 92 ∨ c = 37 ∨ c = 95 := by
  unfold unescape at h
  by_cases hkept : c = 37 ∨ c = 95
  · exact .inr hkept
  · rw [if_neg hkept] at h
    split_ifs at h
    · exact absurd (Option.some.inj h) (by decide)
    · exact absurd (Option.some.inj h) (by decide)
    · exact absurd (Option.some.inj h) (by decide)
    · exact absurd (Option.some.inj h) (by decide)
    · exact absurd (Option.some.inj h) (by decide)
    · exact absurd (Option.some.inj h) (by decide)
    · exact .inl (Option.some.inj h)

/-- A harmless text is read back. -/
theorem readEscaped_of_harmless (hrest : rest.head? ≠ some 39) :
    ∀ {s : Bytes}, Harmless s → readEscaped s rest = some (s, cStr rest)
  | [], _ => readEscaped_nil hrest
  | [c], h => by
      obtain ⟨h0, hkept, -⟩ := harmless_cons.1 h
      have hbackslash : c ≠ 92 := by
        intro hc
        rcases hkept hc with hnil | hnil <;> cases hnil
      rw [readEscaped_cons h0 hbackslash, readEscaped_nil hrest]
      rfl
  | c :: d :: s, h => by
      obtain ⟨h0, hkept, hds⟩ := harmless_cons.1 h
      by_cases hbackslash : c = 92
      · -- the backslash is kept with the `%` or `_` behind it
        obtain ⟨hd0, -, hs⟩ := harmless_cons.1 hds
        have hd : d = 37 ∨ d = 95 := (hkept hbackslash).imp Option.some.inj Option.some.inj
        have hquote : d ≠ 39 := by
          rcases hd with rfl | rfl <;> decide
        have hunescape : unescape d = [92, d] := by
          rcases hd with rfl | rfl <;> rfl
        rw [hbackslash, readEscaped_backslash hd0 hquote, readEscaped_of_harmless hrest hs, hunescape]
        rfl
      · rw [readEscaped_cons h0 hbackslash, readEscaped_of_harmless hrest hds]
        rfl

/-- Backslashes before a backslash: the first byte is one. -/
theorem head?_replicate_backslash (k : Nat) (s : Bytes) :
    (List.replicate k 92 ++ 92 :: s).head? = some 92 := by
  cases k <;> rfl

/-- One backslash more in front is one more in the row. -/
theorem replicate_backslash_append (k : Nat) (s : Bytes) :
    List.replicate k 92 ++ 92 :: 92 :: s = 92 :: (List.replicate (k + 1) 92 ++ s) := by
  rw [← List.cons_append, ← List.replicate_succ, List.replicate_succ', List.replicate_succ',
    List.append_assoc, List.append_assoc]
  rfl

/-- A text that begins with another byte is read back behind backslashes only when there are none. -/
theorem readEscaped_of_cons {c : UInt8} (hbackslash : c ≠ 92) {s : Bytes} {k : Nat} {r : Bytes}
    (h : readEscaped (c :: s) rest = some (List.replicate k 92 ++ c :: s, r)) :
    c ≠ 0 ∧ k = 0 ∧ readEscaped s rest = some (s, r) := by
  have h0 : c ≠ 0 := by
    rintro rfl
    rw [readEscaped_zero] at h
    cases h
  rw [readEscaped_cons h0 hbackslash, Option.map_eq_some_iff] at h
  obtain ⟨⟨v, r'⟩, hv, heq⟩ := h
  obtain ⟨hcons, rfl⟩ := Prod.mk.inj heq
  cases k with
  | zero =>
      obtain ⟨-, rfl⟩ := List.cons.inj hcons
      exact ⟨h0, rfl, hv⟩
  | succ k => exact absurd (List.cons.inj hcons).1 hbackslash

/-- A text that is read back is harmless, wherever the literal ends. Behind doubled backslashes the value
is ahead of the text by as many backslashes (`k`), and it never makes up for them. -/
theorem harmless_of_readEscaped (hrest : rest.head? ≠ some 39) :
    ∀ {s : Bytes} {k : Nat} {r : Bytes},
      readEscaped s rest = some (List.replicate k 92 ++ s, r) → k = 0 ∧ Harmless s
  | [], k, r, h => by
      rw [readEscaped_nil hrest, Option.some.injEq, Prod.mk.injEq, List.append_nil] at h
      have hk := congrArg List.length h.1
      rw [List.length_replicate] at hk
      exact ⟨hk.symm, harmless_nil⟩
  | [c], k, r, h => by
      by_cases hbackslash : c = 92
      · rw [hbackslash] at h
        have hhead := readEscaped_backslash_lost (fun _ hc => by cases hc) h
        rw [head?_replicate_backslash] at hhead
        cases hhead
      · obtain ⟨h0, hk, -⟩ := readEscaped_of_cons hbackslash h
        exact ⟨hk, harmless_cons.2 ⟨h0, fun hc => absurd hc hbackslash, harmless_nil⟩⟩
  | c :: d :: s, k, r, h => by
      by_cases hbackslash : c = 92
      · rw [hbackslash] at h ⊢
        by_cases hlost : d = 0 ∨ d = 39
        · have hhead := readEscaped_backslash_lost (fun _ hc => by cases hc; exact hlost) h
          rw [head?_replicate_backslash] at hhead
          cases hhead
        · obtain ⟨hd0, hquote⟩ := not_or.1 hlost
          rw [readEscaped_backslash hd0 hquote, Option.map_eq_some_iff] at h
          obtain ⟨⟨v, r'⟩, hv, heq⟩ := h
          obtain ⟨hval, rfl⟩ := Prod.mk.inj heq
          dsimp only at hval
          rcases head?_unescape (hval ▸ head?_replicate_backslash k (d :: s)) with rfl | hkept
          · -- a doubled backslash: the value is ahead by one more
            have hahead : v = List.replicate (k + 1) 92 ++ s :=
              (List.cons.inj (hval.trans (replicate_backslash_append k s))).2
            rw [hahead] at hv
            exact absurd (harmless_of_readEscaped hrest hv).1 (Nat.succ_ne_zero k)
          · have hunescape : unescape d = [92, d] := by
              rcases hkept with rfl | rfl <;> rfl
            have hnot : d ≠ 92 := by
              rcases hkept with rfl | rfl <;> decide
            rw [hunescape] at hval
            cases k with
            | zero =>
                have hvs : v = s := (List.cons.inj (List.cons.inj hval).2).2
                rw [hvs] at hv
                have hs := (harmless_of_readEscaped hrest (k := 0) hv).2
                have hds : Harmless (d :: s) := harmless_cons.2 ⟨hd0, fun hd => absurd hd hnot, hs⟩
                exact ⟨rfl, harmless_cons.2 ⟨by decide, fun _ => hkept.imp (congrArg some) (congrArg some), hds⟩⟩
            | succ k =>
                have hsecond : (d :: v).head? = (List.replicate k 92 ++ 92 :: d :: s).head? :=
                  congrArg List.head? (List.cons.inj hval).2
                rw [head?_replicate_backslash] at hsecond
                exact absurd (Option.some.inj hsecond) hnot
      · obtain ⟨h0, hk, hds⟩ := readEscaped_of_cons hbackslash h
        have hrec := harmless_of_readEscaped hrest (k := 0) hds
        exact ⟨hk, harmless_cons.2 ⟨h0, fun hc => absurd hc hbackslash, hrec.2⟩⟩

/-- **Literals.** A text comes through exactly when it is harmless. -/
theorem carriesValue_iff {s : Bytes} : CarriesValue s ↔ Harmless s := by
  constructor
  · intro h
    exact (@harmless_of_readEscaped [] nofun s 0 _ (h [] nofun)).2
  · intro h rest hrest
    exact readEscaped_of_harmless hrest h

end

/-- A text is stored as it is when it is harmless; a NUL would be stored, but it cuts the statement. -/
theorem harmless_iff_storedAsIs {s : Bytes} : Harmless s ↔ UserManager.StoredAsIs s ∧ 0 ∉ s := by
  have hend : ([] : Bytes).head? ≠ some 39 := nofun
  have hplain : 0 ∉ s → readEscaped s [] = readLiteral (escapeSqlString s ++ 39 :: []) := by
    intro hs
    rw [readEscaped, cStr_append (mt zero_mem_escapeSqlString.1 hs)]
    rfl
  constructor
  · intro h
    have hread := readEscaped_of_harmless hend h
    rw [hplain h.1, cStr_nil, readLiteral_iff_unquote hend] at hread
    exact ⟨hread, h.1⟩
  · rintro ⟨hstored, hs⟩
    have hread := (readLiteral_iff_unquote hend).2 hstored
    rw [← hplain hs] at hread
    exact (@harmless_of_readEscaped [] hend s 0 _ hread).2

/-! ## Statements -/

/-- Text of a statement outside its literals: not empty, without NULs and quotes. -/
structure PlainText where
  bytes : Bytes
  ne_nil : bytes ≠ []
  no_nul : 0 ∉ bytes
  no_quote : 39 ∉ bytes

/-- A statement with literals: the text before the first one, and every text between quotes with the text
behind it. -/
structure StatementText where
  front : PlainText
  literals : List (Bytes × PlainText)

/-- The text of a statement. -/
def assemble (front : PlainText) : List (Bytes × PlainText) → Bytes
  | [] => front.bytes
  | (s, after) :: literals => front.bytes ++ 39 :: (escapeSqlString s ++ 39 :: assemble after literals)

/-- MySQL reads the statement that `MySQLTool::Execute` sends the way it was put together: each literal
with its value, and nothing else changed. -/
def StatementText.Intact (t : StatementText) : Prop :=
  Reads (cStr (assemble t.front t.literals)) t.front.bytes (t.literals.map (Prod.map id PlainText.bytes))

/-- A statement goes on with the plain text behind a literal. -/
theorem head?_assemble_ne (after : PlainText) (literals : List (Bytes × PlainText)) :
    (assemble after literals).head? ≠ some 39 := by
  obtain ⟨bytes, hne, -, hquote⟩ := after
  cases bytes with
  | nil => exact absurd rfl hne
  | cons c bytes =>
      have hc : c ≠ 39 := fun hc => hquote (hc ▸ List.mem_cons_self)
      cases literals with
      | nil => exact fun h => hc (Option.some.inj h)
      | cons l literals => exact fun h => hc (Option.some.inj h)

/-- **Statements.** A statement arrives intact exactly when every text in it is harmless. -/
theorem intact_iff (t : StatementText) : t.Intact ↔ ∀ l ∈ t.literals, Harmless l.1 := by
  obtain ⟨front, literals⟩ := t
  unfold StatementText.Intact
  dsimp only
  induction literals generalizing front with
  | nil =>
      have hsent : cStr (assemble front []) = front.bytes := by
        have happend := cStr_append front.no_nul []
        rwa [List.append_nil, cStr_nil, List.append_nil] at happend
      rw [hsent]
      exact iff_of_true (.plain front.no_quote) fun _ hl => absurd hl List.not_mem_nil
  | cons l literals ih =>
      obtain ⟨s, after⟩ := l
      have hrest := head?_assemble_ne after literals
      have hsent : cStr (assemble front ((s, after) :: literals)) =
          front.bytes ++ 39 :: cStr (escapeSqlString s ++ 39 :: assemble after literals) := by
        rw [assemble, cStr_append front.no_nul, cStr_cons (by decide)]
      rw [hsent, List.forall_mem_cons, ← ih, List.map_cons]
      constructor
      · intro h
        generalize htext :
          front.bytes ++ 39 :: cStr (escapeSqlString s ++ 39 :: assemble after literals) = text at h
        cases h with
        | literal hquote hv hreads =>
            obtain ⟨-, rfl⟩ := List.cons.inj (List.append_cancel_left htext)
            have hs : Harmless s := (@harmless_of_readEscaped _ hrest s 0 _ hv).2
            -- a harmless text ends its literal where it was meant to
            have hread := readEscaped_of_harmless hrest hs
            rw [readEscaped] at hread
            rw [id_eq, hread] at hv
            cases hv
            exact ⟨hs, hreads⟩
      · rintro ⟨hs, hreads⟩
        exact .literal front.no_quote (readEscaped_of_harmless hrest hs) hreads

/-! ## The statements of `UserManager` -/

/-- `sql << "..."` -/
def sql (s : String) (h : str s ≠ [] ∧ 0 ∉ str s ∧ 39 ∉ str s) : PlainText := ⟨str s, h.1, h.2.1, h.2.2⟩

/-- A number is plain text. -/
def number (n : Int) : PlainText where
  bytes := printInt n
  ne_nil := fun h => Nat.toDigits_ne_nil (List.map_eq_nil_iff.1 (List.append_eq_nil_iff.1 h).2)
  no_nul := fun h => absurd (mem_printInt h) (by decide)
  no_quote := fun h => absurd (mem_printInt h) (by decide)

/-- Plain texts one after the other. -/
instance : Append PlainText where
  append a b :=
    { bytes := a.bytes ++ b.bytes
      ne_nil := fun h => a.ne_nil (List.append_eq_nil_iff.1 h).1
      no_nul := fun h => (List.mem_append.1 h).elim a.no_nul b.no_nul
      no_quote := fun h => (List.mem_append.1 h).elim a.no_quote b.no_quote }

namespace UserManager

/-- The text of `AddUser`'s statement. -/
def addUserText (userid : Int) (user : User) : StatementText where
  front :=
    sql "INSERT INTO t_user (f_user_id, f_username, f_nickname, f_password, f_mail, f_register_time)VALUES ("
      (by decide +kernel) ++ number userid ++ sql ", " (by decide +kernel)
  literals := [(user.username, sql ", " (by decide +kernel)), (user.nickname, sql ", " (by decide +kernel)),
    (user.password, sql ", " (by decide +kernel)), (user.mail, sql ", NOW())" (by decide +kernel))]

/-- The text of `AddGroup`'s statement. -/
def addGroupText (groupid : Int) (groupname : Bytes) (ownerid : Int) : StatementText where
  front :=
    sql "INSERT INTO t_user (f_user_id, f_username, f_nickname, f_password, f_owner_id, f_register_time) VALUES ("
      (by decide +kernel) ++ number groupid ++ sql ", " (by decide +kernel)
  literals := [(groupname, sql ", " (by decide +kernel)), (groupname, sql ", " (by decide +kernel)),
    ([], sql ", " (by decide +kernel) ++ number ownerid ++ sql ", NOW())" (by decide +kernel))]

/-- The text of `UpdateUserInfo`'s statement. -/
def updateUserInfoText (userid : Int) (newuserinfo : User) : StatementText where
  front := sql "UPDATE t_user SET f_nickname = " (by decide +kernel)
  literals := [
    (newuserinfo.nickname, sql ", f_facetype = " (by decide +kernel) ++ number newuserinfo.facetype ++
      sql ", f_customface = " (by decide +kernel)),
    (newuserinfo.customface, sql ", f_gender = " (by decide +kernel) ++ number newuserinfo.gender ++
      sql ", f_birthday = " (by decide +kernel) ++ number newuserinfo.birthday ++
      sql ", f_signature = " (by decide +kernel)),
    (newuserinfo.signature, sql ", f_address = " (by decide +kernel)),
    (newuserinfo.address, sql ", f_phonenumber = " (by decide +kernel)),
    (newuserinfo.phonenumber, sql ", f_mail = " (by decide +kernel)),
    (newuserinfo.mail, sql " WHERE f_user_id = " (by decide +kernel) ++ number userid)]

/-- The text of `ModifyUserPassword`'s statement. -/
def modifyUserPasswordText (userid : Int) (newpassword : Bytes) : StatementText where
  front := sql "UPDATE t_user SET f_password = " (by decide +kernel)
  literals := [(newpassword, sql " WHERE f_user_id = " (by decide +kernel) ++ number userid)]

/-- The text of `SaveChatMsgToDb`'s statement. -/
def saveChatMsgText (senderid targetid : Int) (chatmsg : Bytes) : StatementText where
  front :=
    sql "INSERT INTO t_chatmsg (f_senderid, f_targetid, f_msgcontent, f_createtime) VALUES (" (by decide +kernel) ++
      number senderid ++ sql ", " (by decide +kernel) ++ number targetid ++ sql ", " (by decide +kernel)
  literals := [(chatmsg, sql ", NOW())" (by decide +kernel))]

/-- The statements `UserManager` builds of texts; all others consist of numbers. -/
inductive ClientStatement
  | addUser (userid : Int) (user : User)
  | addGroup (groupid : Int) (groupname : Bytes) (ownerid : Int)
  | updateUserInfo (userid : Int) (newuserinfo : User)
  | modifyUserPassword (userid : Int) (newpassword : Bytes)
  | saveChatMsg (senderid targetid : Int) (chatmsg : Bytes)

namespace ClientStatement

/-- What is sent. -/
def text : ClientStatement → StatementText
  | addUser userid user => addUserText userid user
  | addGroup groupid groupname ownerid => addGroupText groupid groupname ownerid
  | updateUserInfo userid newuserinfo => updateUserInfoText userid newuserinfo
  | modifyUserPassword userid newpassword => modifyUserPasswordText userid newpassword
  | saveChatMsg senderid targetid chatmsg => saveChatMsgText senderid targetid chatmsg

/-- What is meant. -/
def stmt : ClientStatement → Stmt
  | addUser userid user => addUserStmt userid user
  | addGroup groupid groupname ownerid => addGroupStmt groupid groupname ownerid
  | updateUserInfo userid newuserinfo => updateUserInfoStmt userid newuserinfo
  | modifyUserPassword userid newpassword => modifyUserPasswordStmt userid newpassword
  | saveChatMsg senderid targetid chatmsg => saveChatMsgStmt senderid targetid chatmsg

/-- The literals of a statement are those of its text. -/
theorem literals_text (c : ClientStatement) :
    (c.stmt.literals.filterMap fun l => match l with | .quoted raw => some raw | _ => none) =
      c.text.literals.map fun l => escapeSqlString l.1 := by
  cases c <;> rfl

end ClientStatement

/-- **SQL literals.** A text between quotes is one literal of that value, and leaves the rest of the
statement alone, exactly when it has no NUL and no backslash that MySQL reads as an escape; and a statement
of `UserManager` arrives as it was put together exactly when all its texts are such. -/
theorem literals_carry_iff (s : Bytes) (c : ClientStatement) :
    (CarriesValue s ↔ Harmless s) ∧ (c.text.Intact ↔ ∀ l ∈ c.text.literals, Harmless l.1) :=
  ⟨carriesValue_iff, intact_iff c.text⟩

/-- A password that ends in a backslash takes the closing quote and the `WHERE` behind it along. -/
theorem backslash_escapes_quote :
    ¬ CarriesValue (str "p\\") ∧ ¬ (ClientStatement.modifyUserPassword 1 (str "p\\")).text.Intact := by
  have hharm : ¬ Harmless (str "p\\") := by
    intro h
    have hlast := h.2 1 (by decide +kernel)
    exact absurd hlast (by decide +kernel)
  constructor
  · rw [carriesValue_iff]
    exact hharm
  · rw [intact_iff]
    intro h
    exact hharm (h _ List.mem_cons_self)

end UserManager

end AimChat
