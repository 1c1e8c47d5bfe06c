import AimChat.Store.ChatHistory
import AimChat.Store.UserTable

/-! # The rows of saved chats

A save that is carried out appends one row, whose content is what the literal of the text stands for
(`literalValue`). Two series of saves that differ in the text only leave the same rows exactly when the two
texts stand for the same bytes, or no save of either is carried out (`rows_saveAll_eq_iff`). -/

namespace AimChat

open Sql

namespace UserManager

/-- What the literal of a text stands for in a statement; `none` when no statement with it can be carried
out, because a NUL cuts it or the literal does not end where it was meant to. -/
def literalValue (s : Bytes) : Option Bytes := if 0 ∈ s then none else unquote (escapeSqlString s)

theorem cut_saveChatMsgStmt (senderid targetid : Int) (s : Bytes) :
    MySql.cut (saveChatMsgStmt senderid targetid s) = decide (0 ∈ s) := by
  have hmem : decide (0 ∈ escapeSqlString s) = decide (0 ∈ s) :=
    decide_eq_decide.2 zero_mem_escapeSqlString
  rw [← hmem]
  simp [MySql.cut, saveChatMsgStmt, Stmt.literals, quoted]

section Saves

variable (env : SqlEnv) {s s' : Bytes}

/-- Texts that stand for the same bytes make statements that do the same. -/
theorem execute_saveChatMsg_congr (h : literalValue s = literalValue s') (senderid targetid : Int) (m : MySql) :
    MySql.execute env (saveChatMsgStmt senderid targetid s) m =
      MySql.execute env (saveChatMsgStmt senderid targetid s') m := by
  unfold literalValue at h
  unfold MySql.execute
  rw [cut_saveChatMsgStmt, cut_saveChatMsgStmt]
  have hexec : ∀ {t t' : Bytes}, unquote (escapeSqlString t) = unquote (escapeSqlString t') →
      ∀ now, m.db.exec now (saveChatMsgStmt senderid targetid t) =
        m.db.exec now (saveChatMsgStmt senderid targetid t') := by
    intro t t' ht now
    simp only [saveChatMsgStmt, Db.exec, evalAll, List.mapM_cons, quoted, Literal.eval, ht]
  have hnone : ∀ {t : Bytes}, unquote (escapeSqlString t) = none →
      ∀ now, m.db.exec now (saveChatMsgStmt senderid targetid t) = none := by
    intro t ht now
    cases hdb : m.db.exec now (saveChatMsgStmt senderid targetid t) with
    | none => rfl
    | some db =>
        obtain ⟨-, named, -, hnamed, -⟩ := Db.exec_insert hdb
        simp [evalAll, quoted, Literal.eval, ht] at hnamed
  by_cases hs : 0 ∈ s
  · by_cases hs' : 0 ∈ s'
    · simp [hs, hs']
    · rw [if_pos hs, if_neg hs'] at h
      simp [hs, hs', hnone h.symm]
  · by_cases hs' : 0 ∈ s'
    · rw [if_neg hs, if_pos hs'] at h
      simp [hs, hs', hnone h]
    · rw [if_neg hs, if_neg hs'] at h
      rw [hexec h]
      simp [hs, hs']

variable {env}

/-- A save that is carried out appends one row, with the bytes its text stands for. -/
theorem row_of_saveChatMsg {senderid targetid : Int} {m m' : MySql}
    (h : MySql.execute env (saveChatMsgStmt senderid targetid s) m = (true, m')) :
    ∃ r v, m'.db.rows "t_chatmsg" = m.db.rows "t_chatmsg" ++ [r] ∧ literalValue s = some v ∧
      r "f_msgcontent" = .text v := by
  obtain ⟨-, hcut, hexec, -⟩ := MySql.exec_of_execute h
  rw [cut_saveChatMsgStmt, decide_eq_false_iff_not] at hcut
  obtain ⟨t, named, ht, hnamed, -, -, hdb⟩ := Db.exec_insert hexec
  have hlookup : named.lookup "f_msgcontent" = (unquote (escapeSqlString s)).map .text := by
    rw [lookup_evalAll hnamed]
    rfl
  -- the statement was carried out, so its literal is whole
  obtain ⟨v, hv⟩ : ∃ v, unquote (escapeSqlString s) = some v := by
    cases hnone : unquote (escapeSqlString s) with
    | some v => exact ⟨v, rfl⟩
    | none => simp [evalAll, quoted, Literal.eval, hnone] at hnamed
  refine ⟨t.newRow (env.now m.sent) named, v, ?_, ?_, ?_⟩
  · rw [hdb, Db.rows_set, if_pos rfl, Db.rows_of_table ht]
  · rw [literalValue, if_neg hcut, hv]
  · rw [Table.newRow, hlookup, hv]
    rfl

/-- No save of the text to one of the targets is carried out, the first at the next statement, each other
one statement later. -/
def Refused (env : SqlEnv) (senderid : Int) (s : Bytes) : List Int → MySql → Prop
  | [], _ => True
  | target :: targets, m =>
      (MySql.execute env (saveChatMsgStmt senderid target s) m).1 = false ∧
        Refused env senderid s targets ⟨m.db, m.sent + 1⟩

/-- The chats of one text to a list of targets. -/
def chatsTo (senderid : Int) (s : Bytes) (targets : List Int) : List SavedChat :=
  targets.map fun target => (senderid, target, s)

/-- A series of saves and then another one. -/
theorem snd_saveAll_append (env : SqlEnv) (chats chats' : List SavedChat) (st : Store) :
    (saveAll env (chats ++ chats') st).2 = (saveAll env chats' (saveAll env chats st).2).2 := by
  induction chats generalizing st with
  | nil => rfl
  | cons chat chats ih => exact ih _

/-- A series of saves appends rows, each with the bytes the text stands for. -/
theorem rows_saveAll (env : SqlEnv) (s : Bytes) (senderid : Int) (targets : List Int) (st : Store) :
    ∃ new, (saveAll env (chatsTo senderid s targets) st).2.sql.db.rows "t_chatmsg" =
        st.sql.db.rows "t_chatmsg" ++ new ∧
      (∀ r ∈ new, ∃ v, literalValue s = some v ∧ r "f_msgcontent" = .text v) ∧
      (new = [] ↔ Refused env senderid s targets st.sql) := by
  induction targets generalizing st with
  | nil => exact ⟨[], (List.append_nil _).symm, by simp, iff_of_true rfl trivial⟩
  | cons target targets ih =>
      obtain ⟨rest, hrest, hvalues, hnil⟩ := ih (saveChatMsgToDb env senderid target s st).2
      have hsave : (saveChatMsgToDb env senderid target s st).2.sql =
          (MySql.execute env (saveChatMsgStmt senderid target s) st.sql).2 := rfl
      rcases hexecute : MySql.execute env (saveChatMsgStmt senderid target s) st.sql with ⟨_ | _, m'⟩
      · -- refused: the database stays as it is, and the other saves go on from there
        have hm' : m' = ⟨st.sql.db, st.sql.sent + 1⟩ := by
          unfold MySql.execute at hexecute
          split at hexecute
          · cases hexecute
          · exact (Prod.ext_iff.1 hexecute).2.symm
        rw [hsave, hexecute] at hrest hnil
        dsimp only at hrest hnil
        refine ⟨rest, ?_, hvalues, ?_⟩
        · refine hrest.trans ?_
          rw [hm']
        · rw [hnil, hm', Refused, hexecute]
          simp
      · obtain ⟨r, v, hrow, hv, hcontent⟩ := row_of_saveChatMsg hexecute
        rw [hsave, hexecute] at hrest
        refine ⟨r :: rest, ?_, fun x hx => ?_, ?_⟩
        · refine hrest.trans ?_
          rw [hrow, List.append_assoc, List.singleton_append]
        · rcases List.mem_cons.1 hx with rfl | hx
          · exact ⟨v, hv, hcontent⟩
          · exact hvalues x hx
        · refine iff_of_false (List.cons_ne_nil _ _) fun h => ?_
          rw [Refused, hexecute] at h
          exact Bool.noConfusion h.1

/-- Texts that stand for the same bytes are saved alike. -/
theorem saveAll_congr (h : literalValue s = literalValue s') (senderid : Int) (targets : List Int)
    (st : Store) :
    saveAll env (chatsTo senderid s targets) st = saveAll env (chatsTo senderid s' targets) st := by
  induction targets generalizing st with
  | nil => rfl
  | cons target targets ih =>
      have hsave : saveChatMsgToDb env senderid target s st = saveChatMsgToDb env senderid target s' st := by
        unfold saveChatMsgToDb
        rw [execute_saveChatMsg_congr env h]
      simp only [chatsTo, List.map_cons, saveAll] at ih ⊢
      rw [hsave, ih]

/-- Two series of saves to the same targets leave the same rows when their texts stand for the same bytes,
or none of them is carried out, and only then. -/
theorem rows_saveAll_eq_iff (senderid : Int) (targets : List Int) (st : Store) :
    (saveAll env (chatsTo senderid s targets) st).2.sql.db.rows "t_chatmsg" =
        (saveAll env (chatsTo senderid s' targets) st).2.sql.db.rows "t_chatmsg" ↔
      literalValue s = literalValue s' ∨
        Refused env senderid s targets st.sql ∧ Refused env senderid s' targets st.sql := by
  constructor
  · intro heq
    obtain ⟨new, hnew, hvalue, hnil⟩ := rows_saveAll env s senderid targets st
    obtain ⟨new', hnew', hvalue', hnil'⟩ := rows_saveAll env s' senderid targets st
    rw [hnew, hnew'] at heq
    obtain rfl := List.append_cancel_left heq
    cases new with
    | nil => exact .inr ⟨hnil.1 rfl, hnil'.1 rfl⟩
    | cons r rest =>
        -- a row that both series leave holds the bytes of both texts
        obtain ⟨v, hv, hr⟩ := hvalue r List.mem_cons_self
        obtain ⟨v', hv', hr'⟩ := hvalue' r List.mem_cons_self
        rw [hr] at hr'
        rw [hv, hv', Value.text.inj hr']
        exact .inl rfl
  · rintro (h | ⟨h, h'⟩)
    · rw [saveAll_congr h]
    · obtain ⟨new, hnew, -, hnil⟩ := rows_saveAll env s senderid targets st
      obtain ⟨new', hnew', -, hnil'⟩ := rows_saveAll env s' senderid targets st
      rw [hnew, hnew', hnil.2 h, hnil'.2 h']

end Saves

end UserManager

end AimChat
