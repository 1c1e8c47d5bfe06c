import AimChat.Store.UserManager

/-! # Saved chats and the schema

`SaveChatMsgToDb` writes and `GetChatHistory` reads the column `f_createtime`; the description of
`t_chatmsg` declares `f_create_time`. On a database whose table `Init` created, neither statement can be
carried out: no chat is ever saved, and no history is ever read. -/

namespace AimChat

open Sql

namespace UserManager

/-- A chat as `SaveChatMsgToDb` is called with it: sender, target, content. -/
abbrev SavedChat := Int × Int × Bytes

variable (env : SqlEnv)

/-- A sequence of `SaveChatMsgToDb` calls: what each returned, and the store after them. -/
def saveAll : List SavedChat → Store → List Bool × Store
  | [], st => ([], st)
  | (senderid, targetid, chatmsg) :: chats, st =>
      let (saved, st) := saveChatMsgToDb env senderid targetid chatmsg st
      let (rest, st) := saveAll chats st
      (saved :: rest, st)

/-- The chats a history with `targetid` is about: for a group those sent to it, for a user those
between the two in either direction. -/
def inHistory (userid targetid : Int) (chat : SavedChat) : Bool :=
  if targetid ≥ 0xFFFFFFF then chat.2.1 = targetid
  else (chat.1 = userid ∧ chat.2.1 = targetid) ∨ (chat.1 = targetid ∧ chat.2.1 = userid)

/-- Saved chats come back: every save returns true, and afterwards every history lists the `limit` most
recent chats it is about, newest first, as they were saved. -/
def SavedChatsComeBack (chats : List SavedChat) (st : Store) : Prop :=
  (∀ saved ∈ (saveAll env chats st).1, saved = true) ∧
    ∀ (userid targetid : Int) (limit : Nat), ∃ messages : List ChatMsg,
      (getChatHistory env userid targetid limit (saveAll env chats st).2).1 = some messages ∧
        messages.map (fun m => (m.senderid, m.targetid, m.content)) =
          ((chats.filter (inHistory userid targetid)).reverse).take limit

variable {env}

/-- The created `t_chatmsg` has no column `f_createtime`. -/
theorem hasColumn_createtime :
    (MySqlManager.described MySqlManager.tChatmsg).hasColumn "f_createtime" = false := by
  rw [MySqlManager.described_tChatmsg]
  decide +kernel

/-- A store whose `t_chatmsg` lacks the column saves nothing, whatever the server does. -/
theorem saveChatMsgToDb_eq (env : SqlEnv) {t : Table} {st : Store} (ht : st.sql.db.tables "t_chatmsg" = some t)
    (hcol : t.hasColumn "f_createtime" = false) (senderid targetid : Int) (chatmsg : Bytes) :
    (saveChatMsgToDb env senderid targetid chatmsg st).1 = false ∧
      (saveChatMsgToDb env senderid targetid chatmsg st).2.sql.db = st.sql.db := by
  have hnone : ∀ now, st.sql.db.exec now (saveChatMsgStmt senderid targetid chatmsg) = none :=
    fun now => Db.exec_insert_eq_none ht (c := "f_createtime") (l := .now) (by simp) hcol
  unfold saveChatMsgToDb MySql.execute
  rw [hnone, ite_self]
  exact ⟨rfl, rfl⟩

/-- Every save of a sequence fails and leaves the database as it was. -/
theorem saveAll_eq (env : SqlEnv) {t : Table} (hcol : t.hasColumn "f_createtime" = false) (chats : List SavedChat)
    (st : Store) (ht : st.sql.db.tables "t_chatmsg" = some t) :
    (∀ saved ∈ (saveAll env chats st).1, saved = false) ∧
      (saveAll env chats st).2.sql.db = st.sql.db := by
  induction chats generalizing st with
  | nil => exact ⟨fun _ h => absurd h List.not_mem_nil, rfl⟩
  | cons chat chats ih =>
      obtain ⟨senderid, targetid, chatmsg⟩ := chat
      obtain ⟨hfalse, hdb⟩ := saveChatMsgToDb_eq env ht hcol senderid targetid chatmsg
      obtain ⟨hrest, hdb'⟩ := ih (saveChatMsgToDb env senderid targetid chatmsg st).2
        (by rw [hdb]; exact ht)
      refine ⟨fun saved hsaved => ?_, hdb'.trans hdb⟩
      rcases List.mem_cons.1 hsaved with rfl | hmem
      · exact hfalse
      · exact hrest saved hmem

/-- Every history fails. -/
theorem getChatHistory_eq_none {t : Table} {st : Store}
    (ht : st.sql.db.tables "t_chatmsg" = some t) (hcol : t.hasColumn "f_createtime" = false)
    (userid targetid limit : Int) : (getChatHistory env userid targetid limit st).1 = none := by
  have hnone : st.sql.db.select (historyQuery userid targetid limit) = none := by
    have htable : (historyQuery userid targetid limit).table = "t_chatmsg" := rfl
    have hmem : "f_createtime" ∈ (historyQuery userid targetid limit).columns := by
      simp [Select.columns, historyQuery]
    unfold Db.select
    rw [htable, ht]
    exact Table.select_eq_none hmem hcol
  unfold getChatHistory MySql.query
  rw [hnone, ite_self]
  rfl

/-- **No saved chat comes back.** On a database whose `t_chatmsg` was created by `Init`, whatever the
server does, every `SaveChatMsgToDb` returns false and every `GetChatHistory` afterwards returns false;
so there is no sequence of saves that comes back, not even the empty one. -/
theorem savedChats_never_come_back {sql₀ sql : MySql} {env₀ : SqlEnv}
    (hnew : sql₀.db.tables "t_chatmsg" = none) (hinit : MySqlManager.init env₀ sql₀ = (true, sql))
    (env : SqlEnv) (users : UserManager) (chats : List SavedChat) :
    ¬ SavedChatsComeBack env chats ⟨sql, users⟩ ∧
      (∀ saved ∈ (saveAll env chats ⟨sql, users⟩).1, saved = false) ∧
      ∀ userid targetid limit : Int,
        (getChatHistory env userid targetid limit (saveAll env chats ⟨sql, users⟩).2).1 = none := by
  have ht : sql.db.tables "t_chatmsg" = some (MySqlManager.described MySqlManager.tChatmsg) :=
    MySqlManager.tables_init hinit List.mem_cons_self hnew
  obtain ⟨hsaves, hdb⟩ := saveAll_eq env hasColumn_createtime chats ⟨sql, users⟩ ht
  have hhistory : ∀ userid targetid limit : Int,
      (getChatHistory env userid targetid limit (saveAll env chats ⟨sql, users⟩).2).1 = none :=
    fun userid targetid limit =>
      getChatHistory_eq_none (by rw [hdb]; exact ht) hasColumn_createtime userid targetid limit
  refine ⟨fun h => ?_, hsaves, hhistory⟩
  obtain ⟨messages, hmessages, -⟩ := h.2 1 2 50
  rw [hhistory] at hmessages
  cases hmessages

/-- On fresh tables and a server that carries out whatever it can, nothing is saved. -/
theorem savedChats_fresh :
    ¬ SavedChatsComeBack SqlEnv.ideal [(1, 2, str "hi")] ⟨freshTables, new⟩ ∧
      (∀ saved ∈ (saveAll SqlEnv.ideal [(1, 2, str "hi")] ⟨freshTables, new⟩).1, saved = false) ∧
      ∀ userid targetid limit : Int,
        (getChatHistory SqlEnv.ideal userid targetid limit
          (saveAll SqlEnv.ideal [(1, 2, str "hi")] ⟨freshTables, new⟩).2).1 = none :=
  savedChats_never_come_back (show Db.empty.tables "t_chatmsg" = none from rfl)
    (MySqlManager.init_empty.trans (by rw [freshTables_eq])) SqlEnv.ideal new [(1, 2, str "hi")]

/-- User 1's chat to user 2 is refused by the table the server itself created. -/
theorem saveChat_refused :
    ¬ SavedChatsComeBack SqlEnv.ideal [(1, 2, str "hi")] ⟨freshTables, new⟩ := by
  intro h
  have hrefused : (saveAll SqlEnv.ideal [(1, 2, str "hi")] ⟨freshTables, new⟩).1 = [false] := by
    rw [freshTables_eq]
    decide +kernel
  have := h.1 false (by rw [hrefused]; exact List.mem_singleton_self _)
  exact absurd this (by decide)

end UserManager

end AimChat
