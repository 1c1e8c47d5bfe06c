import AimChat.Lib.Mailbox
import AimChat.Server.World

/-! # The offline chat cache

`MsgCacheManager`: one list of the messages of all users, to whose end `AddChatMsgCache` appends and out of
which `GetChatMsgCache` takes those of a user while it walks over it. The cache is a mailbox for each user
(`getChatMsgCache_eq`), and what the handlers do to the cache of a `World` is done by these functions
(`chatMsgCache_addChatMsgCache`, `getChatMsgCache_world`). The cache of notifications is never filled. -/

namespace AimChat

/-- `std::string::append(s, n)`: the first `n` bytes at `s`. -/
def strAppend (t s : Bytes) (n : Nat) : Bytes := t ++ s.take n

/-- The array `c_str()` points at: the bytes and a NUL behind them. -/
def cStrArray (s : Bytes) : Bytes := s ++ [0]

/-- All of a string is appended, whatever bytes it has. -/
@[simp] theorem strAppend_cStrArray (t s : Bytes) : strAppend t (cStrArray s) s.length = t ++ s := by
  simp [strAppend, cStrArray]

/-- `MsgCacheManager` -/
structure MsgCacheManager where
  /-- `m_listChatMsgCache` -/
  listChatMsgCache : List ChatMsgCache := []
  deriving DecidableEq, Repr

namespace MsgCacheManager

/-- `AddChatMsgCache(userid, cache)` -/
def addChatMsgCache (userid : Int) (cache : Bytes) (m : MsgCacheManager) : MsgCacheManager :=
  let c : ChatMsgCache := { userid := userid, chatmsg := strAppend [] (cStrArray cache) cache.length }
  { m with listChatMsgCache := m.listChatMsgCache ++ [c] }

/-- The loop of `GetChatMsgCache`: the list up to the iterator, the list from the iterator on, and the
entries found so far. -/
def getLoop (userid : Int) : List ChatMsgCache → List ChatMsgCache → List ChatMsgCache →
    List ChatMsgCache × List ChatMsgCache
  | before, [], cached => (cached, before)
  | before, iter :: rest, cached =>
      -- erase gives the iterator behind the entry that is gone
      if iter.userid = userid then getLoop userid before rest (cached ++ [iter])
      else getLoop userid (before ++ [iter]) rest cached

/-- `GetChatMsgCache(userid, cached)`: the list `cached` comes to be, and the cache. -/
def getChatMsgCache (userid : Int) (cached : List ChatMsgCache) (m : MsgCacheManager) :
    List ChatMsgCache × MsgCacheManager :=
  let (cached, left) := getLoop userid [] m.listChatMsgCache cached
  (cached, { m with listChatMsgCache := left })

/-! ## The cache as mailboxes -/

theorem addChatMsgCache_eq (userid : Int) (cache : Bytes) (m : MsgCacheManager) :
    addChatMsgCache userid cache m = ⟨m.listChatMsgCache ++ [⟨userid, cache⟩]⟩ := by
  simp [addChatMsgCache]

/-- What the loop finds and leaves, from any place in the list. -/
theorem getLoop_eq (userid : Int) (before rest cached : List ChatMsgCache) :
    getLoop userid before rest cached =
      (cached ++ Mailbox.of ChatMsgCache.userid userid rest,
        before ++ Mailbox.without ChatMsgCache.userid userid rest) := by
  induction rest generalizing before cached with
  | nil => simp [getLoop]
  | cons iter rest ih =>
      rw [getLoop, Mailbox.of_cons, Mailbox.without_cons]
      by_cases hiter : iter.userid = userid
      · rw [if_pos hiter, if_pos hiter, if_pos hiter, ih, List.append_assoc, List.singleton_append]
      · rw [if_neg hiter, if_neg hiter, if_neg hiter, ih, List.append_assoc, List.singleton_append]

/-- `GetChatMsgCache` takes the entries of a user out of the mailboxes. -/
theorem getChatMsgCache_eq (userid : Int) (cached : List ChatMsgCache) (m : MsgCacheManager) :
    getChatMsgCache userid cached m =
      (cached ++ Mailbox.of ChatMsgCache.userid userid m.listChatMsgCache,
        ⟨Mailbox.without ChatMsgCache.userid userid m.listChatMsgCache⟩) := by
  simp [getChatMsgCache, getLoop_eq]

/-- The cache `AddChatMsgCache` leaves is the one a `World` has after it. -/
theorem chatMsgCache_addChatMsgCache (userid : Int) (cache : Bytes) (w : World) :
    (w.addChatMsgCache userid cache).chatMsgCache =
      (addChatMsgCache userid cache ⟨w.chatMsgCache⟩).listChatMsgCache := by
  rw [addChatMsgCache_eq]
  rfl

/-- `GetChatMsgCache` into an empty list, as the handlers call it. -/
theorem getChatMsgCache_world (userid : Int) (w : World) :
    (w.getChatMsgCache userid).1 = (getChatMsgCache userid [] ⟨w.chatMsgCache⟩).1 ∧
      (w.getChatMsgCache userid).2.chatMsgCache =
        (getChatMsgCache userid [] ⟨w.chatMsgCache⟩).2.listChatMsgCache := by
  rw [getChatMsgCache_eq]
  exact ⟨rfl, rfl⟩

/-! ## Histories of calls -/

/-- A call of the cache. `Get` appends to the list its caller gives it. -/
inductive Call
  | add (userid : Int) (cache : Bytes)
  | get (userid : Int) (cached : List ChatMsgCache)

/-- The cache a call leaves. -/
def call : Call → MsgCacheManager → MsgCacheManager
  | .add userid cache, m => addChatMsgCache userid cache m
  | .get userid cached, m => (getChatMsgCache userid cached m).2

/-- The cache a history of calls leaves. -/
def after (m : MsgCacheManager) (calls : List Call) : MsgCacheManager :=
  calls.foldl (fun m c => call c m) m

/-- The byte strings the calls of `Get` for a user appended to their lists, call by call. -/
def gotten (u : Int) : MsgCacheManager → List Call → List Bytes
  | _, [] => []
  | m, .add userid cache :: calls => gotten u (call (.add userid cache) m) calls
  | m, .get userid cached :: calls =>
      let appended := ((getChatMsgCache userid cached m).1.drop cached.length).map ChatMsgCache.chatmsg
      (if userid = u then appended else []) ++ gotten u (call (.get userid cached) m) calls

/-- The byte strings added for a user, in order. -/
def added (u : Int) (calls : List Call) : List Bytes :=
  calls.filterMap fun
    | .add userid cache => if userid = u then some cache else none
    | .get _ _ => none

/-- The entries of a user in the cache, in order. -/
def stored (u : Int) (m : MsgCacheManager) : List Bytes :=
  (m.listChatMsgCache.filter (·.userid = u)).map ChatMsgCache.chatmsg

/-- A call as one on the mailboxes. -/
def Call.toMailbox : Call → Mailbox.Call Int ChatMsgCache
  | .add userid cache => .put ⟨userid, cache⟩
  | .get userid _ => .take userid

theorem call_eq (c : Call) (m : MsgCacheManager) :
    call c m = ⟨c.toMailbox.apply ChatMsgCache.userid m.listChatMsgCache⟩ := by
  cases c with
  | add userid cache => exact addChatMsgCache_eq userid cache m
  | get userid cached => rw [call, getChatMsgCache_eq]; rfl

theorem after_eq (m : MsgCacheManager) (calls : List Call) :
    after m calls =
      ⟨Mailbox.after ChatMsgCache.userid m.listChatMsgCache (calls.map Call.toMailbox)⟩ := by
  induction calls generalizing m with
  | nil => rfl
  | cons c calls ih =>
      have hstep : after m (c :: calls) = after (call c m) calls := rfl
      rw [hstep, ih, call_eq]
      rfl

theorem gotten_eq (u : Int) (m : MsgCacheManager) (calls : List Call) :
    gotten u m calls =
      (Mailbox.taken ChatMsgCache.userid u m.listChatMsgCache (calls.map Call.toMailbox)).map
        ChatMsgCache.chatmsg := by
  induction calls generalizing m with
  | nil => rfl
  | cons c calls ih =>
      cases c with
      | add userid cache =>
          rw [gotten, ih, call_eq]
          rfl
      | get userid cached =>
          rw [gotten, ih, call_eq, getChatMsgCache_eq, List.drop_left]
          simp only [List.map_cons, Call.toMailbox, Mailbox.taken, Mailbox.Call.apply, List.map_append]
          by_cases hu : userid = u
          · rw [if_pos hu, if_pos hu, hu]
          · rw [if_neg hu, if_neg hu, List.map_nil]

theorem added_eq (u : Int) (calls : List Call) :
    added u calls =
      (Mailbox.puts ChatMsgCache.userid u (calls.map Call.toMailbox)).map ChatMsgCache.chatmsg := by
  induction calls with
  | nil => rfl
  | cons c calls ih =>
      cases c with
      | add userid cache =>
          simp only [added, List.filterMap_cons, List.map_cons, Call.toMailbox, Mailbox.puts] at ih ⊢
          by_cases hu : userid = u
          · rw [if_pos hu, if_pos hu, List.map_cons, ← ih]
          · rw [if_neg hu, if_neg hu, ← ih]
      | get userid cached => exact ih

/-- **The offline cache is a lossless FIFO for each user.** Over any calls on a new cache, what the calls
of `Get` for a user appended to their lists, followed by what is still stored for the user, is what was
added for the user, byte for byte and in order; and a `Get` appends to its list and takes the user's
entries out of the cache, with those of everybody else left as they stand. -/
theorem chatMsgCache_lossless_fifo (calls : List Call) (u : Int) :
    gotten u {} calls ++ stored u (after {} calls) = added u calls ∧
      ∀ cached : List ChatMsgCache,
        cached <+: (getChatMsgCache u cached (after {} calls)).1 ∧
        (getChatMsgCache u cached (after {} calls)).2.listChatMsgCache =
          (after {} calls).listChatMsgCache.filter (·.userid ≠ u) ∧
        ∀ v, v ≠ u →
          stored v (getChatMsgCache u cached (after {} calls)).2 = stored v (after {} calls) := by
  refine ⟨?_, fun cached => ⟨?_, ?_, fun v hv => ?_⟩⟩
  · have hfifo := Mailbox.taken_append_of_after ChatMsgCache.userid u []
      (calls.map Call.toMailbox)
    rw [Mailbox.of_nil, List.nil_append] at hfifo
    rw [gotten_eq, added_eq, after_eq, ← hfifo, List.map_append]
    rfl
  · rw [getChatMsgCache_eq]
    exact List.prefix_append _ _
  · rw [getChatMsgCache_eq]
    rfl
  · rw [getChatMsgCache_eq]
    exact congrArg (List.map ChatMsgCache.chatmsg) (Mailbox.of_without_of_ne _ _ hv)

/-- Two users' messages interleaved: each gets their own, the NUL byte included. -/
example :
    let calls : List Call := [.add 1 [104, 0, 105], .add 2 [50], .add 1 [51], .get 1 [], .add 1 [52]]
    gotten 1 {} calls = [[104, 0, 105], [51]] ∧ stored 1 (after {} calls) = [[52]] ∧
      stored 2 (after {} calls) = [[50]] := by
  decide

end MsgCacheManager

end AimChat
