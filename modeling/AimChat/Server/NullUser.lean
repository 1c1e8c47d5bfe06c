import AimChat.Server.Effect

/-! # Null users

`m_user` is null until a login names a record, and most handlers read it without a test. Which messages
of such a session end the process is `ReadsUser`; a run gets by without a null `m_user` exactly when no
session without a user handles one of them. -/

namespace AimChat

open ClientSession

variable {env : Env}

/-- In a state that meets the invariant, the handler of a message dereferences a null `m_user` exactly when
the session has none and the handler reads it. -/
theorem onMessageReceived_nullUser_iff {w : World} (hw : Inv w) (n : Nat) (msg : MessageContainer) :
    onMessageReceived env n msg w = .error .nullUser ↔
      (w.session n).user = none ∧ ReadsUser env msg w.store.users :=
  (served_onMessageReceived env n msg w hw.made).nullUser_iff

variable (env)

/-- A session without a user handles a message whose handler reads it. -/
def NullCrash (w : World) : Event → Prop
  | .recv n msg => w.im.Connected n ∧ (w.session n).user = none ∧ ReadsUser env msg w.store.users
  | _ => False

variable {env}

/-- An event dereferences a null `m_user` exactly when it is such a message; the callback of a call to the
assistant never does. -/
theorem step_nullUser_iff {w : World} (hw : Inv w) (e : Event) :
    step env w e = .error .nullUser ↔ NullCrash env w e := by
  cases e with
  | connect addr =>
      refine iff_of_false (fun h => ?_) id
      change (if hfree : addr ≠ 0 ∧ w.im.Free addr then Except.ok (w.connect addr hfree.2) else .ok w) = _ at h
      split_ifs at h
  | recv n msg =>
      change (if w.im.Connected n then onMessageReceived env n msg w else .ok w) = _ ↔ _
      split_ifs with hn
      · rw [onMessageReceived_nullUser_iff hw]
        exact (and_iff_right hn).symm
      · exact iff_of_false (fun h => by cases h) fun h => hn h.1
  | malformed n => exact iff_of_false (fun h => by cases h) id
  | close n =>
      refine iff_of_false (fun h => ?_) id
      change (if hn : w.im.Live n then Except.ok { w with im := w.im.onClose n hn } else .ok w) = _ at h
      split_ifs at h
  | agentDone k rpc =>
      refine iff_of_false (fun h => ?_) id
      change w.agentDone env k rpc = _ at h
      unfold World.agentDone at h
      cases hcall : w.agentCalls[k]? with
      | none => rw [hcall] at h; cases h
      | some call =>
          obtain ⟨-, p, hp⟩ := hw.agentCalls call (List.mem_of_getElem? hcall)
          have hsome : ((w.forget k).session call.session).user = some p := hp
          rw [hcall] at h
          dsimp only at h
          split_ifs at h
          · unfold agentReplied World.theUser at h
            rw [hsome] at h
            cases h
          · cases h

/-- **Dispatch.** From any store, a run dereferences no null `m_user` exactly when no session without a
user handles a message whose handler reads it. -/
theorem dispatch_safe_iff (st : Store) (es : List Event) :
    Run.run (step env) (World.init st) es ≠ .error .nullUser ↔
      Run.Always (step env) (fun w e => ¬ NullCrash env w e) (World.init st) es := by
  rw [Run.run_ne_error_iff_always]
  exact Run.always_congr inv_step (fun w e hw => not_congr (step_nullUser_iff hw e)) (inv_init st)

/-- A client that has just connected asks for its friend list. -/
theorem friendList_before_login :
    ¬ Run.run (step (Env.ideal none)) (World.init UserManager.freshStore)
      [.connect 1, .recv 0 { cmd := msg_type_getofriendlist, seq := 1 }] ≠ .error .nullUser := by
  have hconnected := @step_connect_init (Env.ideal none) UserManager.freshStore
  have hcrash := (@step_nullUser_iff (Env.ideal none) _ (inv_step _ _ _ (inv_init _) hconnected)
    (.recv 0 { cmd := msg_type_getofriendlist, seq := 1 })).2 ⟨⟨Nat.one_pos, rfl⟩, rfl, .inr (.inl rfl)⟩
  rw [not_not, Run.run, hconnected]
  dsimp only
  rw [Run.run, hcrash]

end AimChat
