import AimChat.Agent.Encoding
import AimChat.Agent.MemoryCache
import AimChat.Lib.Timed
import Mathlib.Algebra.Ring.Parity

/-! # Conversations with no model configured

`EmptyProvider.Chat` of goagent over `MemoryCache`. A reply quotes the last messages of the user's history, in
which earlier replies quote earlier ones. A user's conversation is a list of exchanges, computed from the user's
own contents (`conversation`); the cache keeps the messages of the last fifty of each user, whoever talks in
between (`stored_after`). -/

namespace AimChat.Agent

/-- `ChatRequest`: what `Chat` reads of it. -/
structure ChatRequest where
  userID : Int
  content : String
  deriving DecidableEq

/-- `ChatResponse` -/
structure ChatResponse where
  reply : String
  model : String
  deriving DecidableEq

namespace EmptyProvider

/-! ## The provider -/

/-- `truncate(s, maxLen)` -/
def truncate (s : String) (maxLen : Nat) : String :=
  if s.toList.length ≤ maxLen then s else String.ofList (s.toList.take maxLen) ++ "..."

/-- A line of the history in a reply. -/
def historyLine (m : Message) : String :=
  let role := if m.role = "assistant" then "🤖" else "🧑"
  "  " ++ role ++ " " ++ truncate m.content 60 ++ "\n"

/-- `reply`, from the history that was read and the content. -/
def replyTo (history : List Message) (content : String) : String :=
  "[Agent未配置]\n" ++ "收到消息: \"" ++ content ++ "\"\n" ++
    (if history.length > 1 then
      "\n对话历史 (" ++ toString history.length ++ "条):\n" ++ String.join (history.map historyLine)
    else "") ++
    "\n当前LLM Provider未配置，请在配置中设置 llm.provider 以启用AI回复。\n" ++
    "支持的Provider: openai, anthropic"

variable (json : Json)

/-- `Chat(req)` -/
def chat (req : ChatRequest) (m : MemoryCache) : ChatResponse × MemoryCache :=
  let history := m.getHistory json req.userID 10
  let m := m.appendHistory json req.userID ⟨"user", req.content, 0⟩ 100
  let reply := replyTo history req.content
  (⟨reply, "none"⟩, m.appendHistory json req.userID ⟨"assistant", reply, 0⟩ 100)

/-- The cache after a run of calls. -/
def after (reqs : List ChatRequest) : MemoryCache := reqs.foldl (fun m req => (chat json req m).2) .new

end EmptyProvider

/-! ## Conversations -/

/-- A content and the reply to it. -/
structure Exchange where
  content : String
  reply : String
  deriving DecidableEq

/-- The messages of a conversation. -/
def messages (past : List Exchange) : List Message :=
  past.flatMap fun ex => [⟨"user", ex.content, 0⟩, ⟨"assistant", ex.reply, 0⟩]

/-- User and assistant take turns, the user first. -/
def Alternates (msgs : List Message) : Prop :=
  ∀ i msg, msgs[i]? = some msg → msg.role = if i % 2 = 0 then "user" else "assistant"

theorem messages_cons (ex : Exchange) (past : List Exchange) :
    messages (ex :: past) = ⟨"user", ex.content, 0⟩ :: ⟨"assistant", ex.reply, 0⟩ :: messages past := rfl

theorem messages_append (past later : List Exchange) : messages (past ++ later) = messages past ++ messages later :=
  List.flatMap_append

theorem length_messages (past : List Exchange) : (messages past).length = 2 * past.length := by
  induction past with
  | nil => rfl
  | cons ex past ih =>
      rw [messages_cons, List.length_cons, List.length_cons, ih, List.length_cons]
      omega

theorem alternates_messages (past : List Exchange) : Alternates (messages past) := by
  induction past with
  | nil => exact fun i msg h => by simp [messages] at h
  | cons ex past ih =>
      intro i msg h
      rw [messages_cons] at h
      cases i with
      | zero =>
          cases h
          rfl
      | succ i =>
          rw [List.getElem?_cons_succ] at h
          cases i with
          | zero =>
              cases h
              rfl
          | succ i =>
              rw [List.getElem?_cons_succ] at h
              rw [ih i msg h, Nat.add_assoc, Nat.add_mod_right]

/-- Dropping exchanges drops their messages. -/
theorem drop_messages (n : Nat) (past : List Exchange) : (messages past).drop (2 * n) = messages (past.drop n) := by
  induction past generalizing n with
  | nil => simp [messages]
  | cons ex past ih =>
      cases n with
      | zero => rfl
      | succ n => exact ih n

/-- The last messages of a conversation, of which there are an even number, are those of its last exchanges. -/
theorem keepLast_messages (n : Nat) (past : List Exchange) :
    keepLast (2 * n) (messages past) = messages (past.drop (past.length - n)) := by
  rw [keepLast_eq_drop, length_messages, ← Nat.mul_sub, drop_messages]

namespace EmptyProvider

/-- The exchange a content leads to. -/
def answered (past : List Exchange) (content : String) : Exchange :=
  ⟨content, replyTo (keepLast 10 (messages past)) content⟩

/-- The conversation of a user who sends these contents. -/
def conversation (contents : List String) : List Exchange :=
  contents.foldl (fun past content => past ++ [answered past content]) []

/-- What a user sends in a run. -/
def contents (userID : Int) (reqs : List ChatRequest) : List String :=
  (reqs.filter fun req => req.userID = userID).map ChatRequest.content

/-- The exchange of a call, if it is the user's. -/
def exchanged (json : Json) (userID : Int) (m : MemoryCache) (req : ChatRequest) : List Exchange :=
  if req.userID = userID then [⟨req.content, (chat json req m).1.reply⟩] else []

/-- A user's exchanges in a run, with the replies that were given. -/
def exchanges (json : Json) (userID : Int) (reqs : List ChatRequest) : List Exchange :=
  Run.log (Run.total fun m req => (chat json req m).2 : _ → _ → Except Unit _) (exchanged json userID) .new reqs

variable {json : Json} {m : MemoryCache} {userID : Int}

theorem conversation_snoc (contents : List String) (content : String) :
    conversation (contents ++ [content]) = conversation contents ++ [answered (conversation contents) content] := by
  rw [conversation, List.foldl_append]
  rfl

theorem after_snoc (reqs : List ChatRequest) (req : ChatRequest) :
    after json (reqs ++ [req]) = (chat json req (after json reqs)).2 := by
  rw [after, List.foldl_append]
  rfl

theorem exchanges_snoc (reqs : List ChatRequest) (req : ChatRequest) :
    exchanges json userID (reqs ++ [req]) =
      exchanges json userID reqs ++ exchanged json userID (after json reqs) req :=
  Run.log_snoc _ (Run.run_total _ _ reqs) req

theorem contents_snoc (reqs : List ChatRequest) (req : ChatRequest) :
    contents userID (reqs ++ [req]) =
      contents userID reqs ++ if req.userID = userID then [req.content] else [] := by
  rw [contents, List.filter_append, List.map_append]
  by_cases hreq : req.userID = userID <;> simp [contents, hreq]

/-! ## One call -/

/-- The reply is to the last ten messages of the user's history. -/
theorem reply_chat (req : ChatRequest) {past : List Exchange}
    (hstored : m.stored json req.userID = keepLast 100 (messages past)) :
    (chat json req m).1.reply = (answered past req.content).reply := by
  show replyTo (m.getHistory json req.userID 10) req.content = _
  rw [MemoryCache.getHistory_eq, hstored, keepLast_keepLast]
  rfl

section Call

variable (hlist : ∀ msgs, json.unmarshalList (json.marshalList msgs) = msgs)
include hlist

/-- An append is to the history of its user. -/
theorem stored_appendHistory (userID' : Int) (msg : Message) (maxLen : Nat) :
    (m.appendHistory json userID' msg maxLen).stored json userID =
      if userID = userID' then keepLast maxLen (m.stored json userID ++ [msg]) else m.stored json userID := by
  rw [MemoryCache.stored, MemoryCache.lookup_appendHistory]
  by_cases huser : userID = userID'
  · rw [huser, if_pos rfl, if_pos rfl]
    exact hlist _
  · rw [if_neg fun h => huser (MemoryCache.historyKey_injective h), if_neg huser]
    rfl

/-- A call appends its exchange to the user's history, and the last hundred messages are kept. -/
theorem stored_chat (req : ChatRequest) {past : List Exchange}
    (hstored : m.stored json userID = keepLast 100 (messages past)) :
    (chat json req m).2.stored json userID = keepLast 100 (messages (past ++ exchanged json userID m req)) := by
  unfold chat
  dsimp only
  rw [stored_appendHistory hlist, stored_appendHistory hlist, exchanged]
  split_ifs with huser huser'
  · have hmessages : messages [⟨req.content, (chat json req m).1.reply⟩] =
        [⟨"user", req.content, 0⟩] ++ [⟨"assistant", (chat json req m).1.reply, 0⟩] := rfl
    rw [hstored, messages_append, hmessages, keepLast_append_keepLast _ _ (Nat.le_add_right _ _), List.append_assoc,
      keepLast_append_keepLast _ _ (Nat.le_add_right _ _)]
    rfl
  · exact absurd huser.symm huser'
  · exact absurd (Eq.symm ‹_›) huser
  · rw [hstored, List.append_nil]

/-! ## Runs -/

/-- **The cache keeps the last hundred messages of every user's conversation, and the conversation is the one of
the user's own contents.** -/
theorem stored_after (reqs : List ChatRequest) (userID : Int) :
    (after json reqs).stored json userID = keepLast 100 (messages (exchanges json userID reqs)) ∧
      exchanges json userID reqs = conversation (contents userID reqs) := by
  induction reqs using List.reverseRecOn with
  | nil => exact ⟨(keepLast_nil 100).symm, rfl⟩
  | append_singleton reqs req ih =>
      obtain ⟨hstored, hown⟩ := ih
      rw [after_snoc, exchanges_snoc, contents_snoc]
      refine ⟨stored_chat hlist req hstored, ?_⟩
      rw [hown, exchanged]
      split_ifs with huser
      · subst huser
        rw [conversation_snoc, reply_chat req hstored, hown]
        rfl
      · rw [List.append_nil, List.append_nil]

/-- **Conversations are complete, alternating and isolated.** Behind each call of a run by any users the stored
history of its user is the last hundred messages of the user's exchanges, an even number of them, by turns and the
user's first; and the reply is the one to the user's own contents so far. -/
theorem conversations (before : List ChatRequest) (req : ChatRequest) :
    (after json (before ++ [req])).stored json req.userID =
        keepLast 100 (messages (exchanges json req.userID (before ++ [req]))) ∧
      Even ((after json (before ++ [req])).stored json req.userID).length ∧
      Alternates ((after json (before ++ [req])).stored json req.userID) ∧
      ((after json (before ++ [req])).stored json req.userID).head?.map Message.role = some "user" ∧
      (chat json req (after json before)).1.reply =
        (answered (conversation (contents req.userID before)) req.content).reply := by
  obtain ⟨hstored, -⟩ := stored_after hlist (before ++ [req]) req.userID
  obtain ⟨hbefore, hown⟩ := stored_after hlist before req.userID
  have hnonempty : exchanges json req.userID (before ++ [req]) ≠ [] := by
    rw [exchanges_snoc, exchanged, if_pos rfl]
    exact List.append_ne_nil_of_right_ne_nil _ (List.cons_ne_nil _ _)
  -- the hundred messages are those of the last fifty exchanges
  have hlast := keepLast_messages 50 (exchanges json req.userID (before ++ [req]))
  refine ⟨hstored, ?_, ?_, ?_, hown ▸ reply_chat req hbefore⟩
  · rw [hstored, hlast, length_messages]
    exact even_two_mul _
  · rw [hstored, hlast]
    exact alternates_messages _
  · rw [hstored, hlast]
    cases hfifty : (exchanges json req.userID (before ++ [req])).drop
        ((exchanges json req.userID (before ++ [req])).length - 50) with
    | nil =>
        rw [List.drop_eq_nil_iff] at hfifty
        have hlength := List.length_pos_of_ne_nil hnonempty
        omega
    | cons ex past => rfl

end Call

/-- User 1 asks, user 2 asks, and user 1 asks again. -/
theorem conversations_three :
    (chat encodingJson ⟨1, "b"⟩ (after encodingJson [⟨1, "a"⟩, ⟨2, "x"⟩])).1.reply =
      (answered (conversation ["a"]) "b").reply :=
  (conversations encodingJson_lawful.list [⟨1, "a"⟩, ⟨2, "x"⟩] ⟨1, "b"⟩).2.2.2.2

end EmptyProvider

end AimChat.Agent
