import AimChat.Base.Decimal
import AimChat.Server.ChatDelivery

/-! # Searching by id

`OnFindUserResponse` hands the keyword of a search by id to `std::stoi`, which throws on a text that starts
with no number, and reads no further than the number a text starts with. The search answers as the whole
keyword asks exactly when the keyword starts with a number, and is that number or names nobody
(`search_by_id_iff`). -/

namespace AimChat

open ClientSession

/-- The keyword starts with the number `i` of an `int`: white space, a sign and digits, with anything
behind them. -/
def StartsWith (keyword : Bytes) (i : Int) : Prop :=
  ∃ x : Numeral, x.text = keyword ∧ x.value = i ∧ IsInt32 i

/-- What a search by id should answer: the user whose id the whole keyword is, that the id is a group's,
or that nobody has it. -/
structure AnswersSearch (w : World) (keyword : Bytes) (rsp : FindUserRsp) : Prop where
  found : ∀ u, (rsp.code = 0 ∧ rsp.user = some u) ↔
    ∃ id p, keyword = printInt id ∧ w.store.users.getUserByID id = some p ∧ id < GROUPID_BOUNDARY ∧
      u = memberInfo (w.record p)
  group : rsp.code = 105 ↔
    ∃ id p, keyword = printInt id ∧ w.store.users.getUserByID id = some p ∧ id ≥ GROUPID_BOUNDARY
  unknown : rsp.code = 103 ↔ ¬ ∃ id p, keyword = printInt id ∧ w.store.users.getUserByID id = some p

/-- The handler finishes with one response on its session, which answers the search. -/
def SearchAnswered (env : Env) (n : Nat) (msg : MessageContainer) (w : World) (keyword : Bytes) : Prop :=
  ∃ rsp w', findUserRsp env msg w = .ok rsp ∧ onFindUserResponse env n msg w = .ok w' ∧
    w'.sent = w.sent ++ [⟨n, w.im.state n, w.userID n, .answer,
      { cmd := msg_type_finduser, seq := (w.session n).seq
        payload := env.pb.findUserRsp.serialize rsp }⟩] ∧
    AnswersSearch w keyword rsp

/-- The answer once the keyword was read as a number. -/
def searchRsp (w : World) (userid : Int) : FindUserRsp :=
  match w.store.users.getUserByID userid with
  | none => { code := 103, msg := str "user not found!" }
  | some p =>
      if userid ≥ GROUPID_BOUNDARY then { code := 105, msg := str "cannot search for group!" }
      else { code := 0, msg := str "ok", user := some (memberInfo (w.record p)) }

variable {env : Env} {n : Nat} {msg : MessageContainer} {w : World} {req : FindUserReq}

/-- `std::stoi` throws: nothing is answered. -/
theorem findUserRsp_of_none (hparse : env.pb.findUserReq.parse msg.payload = some req)
    (hid : req.type = str "userid") (hread : stoi req.keyword = none) :
    findUserRsp env msg w = .error .uncaught := by
  have hname : req.type ≠ str "username" := by
    rw [hid]
    decide +kernel
  unfold findUserRsp findUser
  rw [hparse]
  dsimp only
  rw [if_neg hname, if_pos hid, hread]
  rfl

/-- `std::stoi` gives a number: the record of that id is looked up. -/
theorem findUserRsp_of_some (hparse : env.pb.findUserReq.parse msg.payload = some req)
    (hid : req.type = str "userid") {i : Int} (hread : stoi req.keyword = some i) :
    findUserRsp env msg w = .ok (searchRsp w i) := by
  have hname : req.type ≠ str "username" := by
    rw [hid]
    decide +kernel
  unfold findUserRsp findUser searchRsp
  rw [hparse]
  dsimp only
  rw [if_neg hname, if_pos hid, hread]
  dsimp only
  cases hfound : w.store.users.getUserByID i with
  | none => rfl
  | some p =>
      have huserid : (w.record p).userid = i := (w.store.users.mapped hfound).2
      show (if (w.record p).userid ≥ GROUPID_BOUNDARY then _ else _) = _
      rw [huserid]
      split_ifs with hgroup
      · rfl
      · rfl

/-- A number as it is written is read as itself. -/
theorem stoi_printInt {i j : Int} (h : stoi (printInt i) = some j) : i = j := by
  obtain ⟨x, htext, hvalue, -⟩ := stoi_eq_some.1 h
  have hread := strtol_text x
  rw [htext, strtol_printInt] at hread
  exact (Option.some.inj hread).trans hvalue

/-- Nobody has the number as id: 103, as the keyword asks. -/
theorem answersSearch_of_nobody {keyword : Bytes} {i : Int} (hread : stoi keyword = some i)
    (hfound : w.store.users.getUserByID i = none) : AnswersSearch w keyword (searchRsp w i) := by
  have hnone : ∀ {id p}, keyword = printInt id → w.store.users.getUserByID id ≠ some p := by
    rintro id p rfl hget
    rw [stoi_printInt hread, hfound] at hget
    cases hget
  unfold searchRsp
  rw [hfound]
  dsimp only
  refine ⟨fun u => ?_, ?_, ?_⟩
  · refine iff_of_false (fun h => absurd h.1 (by decide)) ?_
    rintro ⟨id, p, hkey, hget, -⟩
    exact hnone hkey hget
  · refine iff_of_false (by decide) ?_
    rintro ⟨id, p, hkey, hget, -⟩
    exact hnone hkey hget
  · refine iff_of_true rfl ?_
    rintro ⟨id, p, hkey, hget⟩
    exact hnone hkey hget

/-- The code says which branch answered for somebody who is found. -/
theorem code_searchRsp {i : Int} {p : UserPtr} (hfound : w.store.users.getUserByID i = some p) :
    (searchRsp w i).code = if i ≥ GROUPID_BOUNDARY then 105 else 0 := by
  unfold searchRsp
  rw [hfound]
  dsimp only
  split_ifs with hgroup
  · rfl
  · rfl

/-- Somebody is found and the answer is right: it is not 103, so somebody has the id that the keyword is. -/
theorem eq_printInt_of_answersSearch {keyword : Bytes} {i : Int} {p : UserPtr} (hread : stoi keyword = some i)
    (hfound : w.store.users.getUserByID i = some p) (h : AnswersSearch w keyword (searchRsp w i)) :
    keyword = printInt i := by
  have hcode : (searchRsp w i).code ≠ 103 := by
    rw [code_searchRsp hfound]
    split_ifs <;> decide
  obtain ⟨id, -, rfl, -⟩ := not_not.1 (mt h.unknown.2 hcode)
  rw [stoi_printInt hread]

/-- The keyword is the id of somebody. -/
theorem answersSearch_of_found {i : Int} {p : UserPtr} (hread : stoi (printInt i) = some i)
    (hfound : w.store.users.getUserByID i = some p) : AnswersSearch w (printInt i) (searchRsp w i) := by
  have hone : ∀ {id q}, printInt i = printInt id → w.store.users.getUserByID id = some q → id = i ∧ q = p := by
    intro id q hkey hget
    rw [hkey] at hread
    obtain rfl := stoi_printInt hread
    exact ⟨rfl, Option.some.inj (hget.symm.trans hfound)⟩
  have hcode := code_searchRsp hfound
  by_cases hgroup : i ≥ GROUPID_BOUNDARY
  · rw [if_pos hgroup] at hcode
    refine ⟨fun u => ?_, ?_, ?_⟩
    · refine iff_of_false (fun h => absurd (hcode.symm.trans h.1) (by decide)) ?_
      rintro ⟨id, q, hkey, hget, hlt, -⟩
      rw [(hone hkey hget).1] at hlt
      omega
    · exact iff_of_true hcode ⟨i, p, rfl, hfound, hgroup⟩
    · exact iff_of_false (fun h => absurd (hcode.symm.trans h) (by decide)) (not_not.2 ⟨i, p, rfl, hfound⟩)
  · rw [if_neg hgroup] at hcode
    have huser : (searchRsp w i).user = some (memberInfo (w.record p)) := by
      unfold searchRsp
      rw [hfound]
      dsimp only
      rw [if_neg hgroup]
    refine ⟨fun u => ?_, ?_, ?_⟩
    · constructor
      · rintro ⟨-, hu⟩
        exact ⟨i, p, rfl, hfound, not_le.1 hgroup, Option.some.inj (hu.symm.trans huser)⟩
      · rintro ⟨id, q, hkey, hget, -, rfl⟩
        rw [(hone hkey hget).2]
        exact ⟨hcode, huser⟩
    · refine iff_of_false (fun h => absurd (hcode.symm.trans h) (by decide)) ?_
      rintro ⟨id, q, hkey, hget, hge⟩
      rw [(hone hkey hget).1] at hge
      exact hgroup hge
    · exact iff_of_false (fun h => absurd (hcode.symm.trans h) (by decide)) (not_not.2 ⟨i, p, rfl, hfound⟩)

/-- The answer is right when the keyword is the number, or nobody has the number as id. -/
theorem answersSearch_iff {keyword : Bytes} {i : Int} (hread : stoi keyword = some i) :
    AnswersSearch w keyword (searchRsp w i) ↔
      keyword = printInt i ∨ w.store.users.getUserByID i = none := by
  cases hfound : w.store.users.getUserByID i with
  | none => exact iff_of_true (answersSearch_of_nobody hread hfound) (.inr rfl)
  | some p =>
      rw [or_iff_left (Option.some_ne_none p)]
      constructor
      · exact eq_printInt_of_answersSearch hread hfound
      · rintro rfl
        exact answersSearch_of_found hread hfound

/-- **Search by id.** A search by id finishes with one response, which answers what the whole keyword asks,
exactly when the keyword starts with a number that is all of it, as a number is written, or that is nobody's
id. -/
theorem search_by_id_iff (env : Env) (n : Nat) (w : World) {msg : MessageContainer} {req : FindUserReq}
    (hparse : env.pb.findUserReq.parse msg.payload = some req) (hid : req.type = str "userid") :
    SearchAnswered env n msg w req.keyword ↔
      ∃ i, StartsWith req.keyword i ∧
        (req.keyword = printInt i ∨ w.store.users.getUserByID i = none) := by
  cases hread : stoi req.keyword with
  | none =>
      refine iff_of_false ?_ ?_
      · rintro ⟨rsp, w', hrsp, -⟩
        rw [findUserRsp_of_none hparse hid hread] at hrsp
        cases hrsp
      · rintro ⟨i, hstarts, -⟩
        rw [stoi_eq_some.2 hstarts] at hread
        cases hread
  | some i =>
      have hrsp : findUserRsp env msg w = .ok (searchRsp w i) := findUserRsp_of_some hparse hid hread
      constructor
      · rintro ⟨rsp, w', hrsp', -, -, hanswers⟩
        obtain rfl : searchRsp w i = rsp := Except.ok.inj (hrsp.symm.trans hrsp')
        exact ⟨i, stoi_eq_some.1 hread, (answersSearch_iff hread).1 hanswers⟩
      · rintro ⟨j, hj, hor⟩
        obtain rfl : i = j := Option.some.inj (hread.symm.trans (stoi_eq_some.2 hj))
        refine ⟨searchRsp w i, w.respond n msg_type_finduser
          (env.pb.findUserRsp.serialize (searchRsp w i)), hrsp, ?_, rfl, (answersSearch_iff hread).2 hor⟩
        rw [onFindUserResponse, hrsp]
        rfl

/-- A search by id. -/
def searchMessage (keyword : Bytes) : MessageContainer :=
  { cmd := msg_type_finduser, seq := 2
    payload := Protobuf.wire.findUserReq.serialize { type := str "userid", keyword := keyword } }

/-- A search for the user of `oneUser`. -/
theorem search_by_id_one :
    SearchAnswered (Env.ideal none) 0 (searchMessage (str "1")) (World.init UserManager.oneUser) (str "1") ↔
      ∃ i, StartsWith (str "1") i ∧ (str "1" = printInt i ∨
        (World.init UserManager.oneUser).store.users.getUserByID i = none) :=
  @search_by_id_iff (Env.ideal none) 0 (World.init UserManager.oneUser) _
    { type := str "userid", keyword := str "1" } (by decide +kernel) rfl

/-- A client that searches for `abc` gets no answer: the exception ends the server. -/
theorem search_uncaught :
    Run.run (step (Env.ideal none)) (World.init UserManager.oneUser)
        [.connect 1, .recv 0 (searchMessage (str "abc"))] = .error .uncaught ∧
      Protobuf.wire.findUserReq.parse (searchMessage (str "abc")).payload =
        some { type := str "userid", keyword := str "abc" } ∧
      ∀ w, ¬ SearchAnswered (Env.ideal none) 0 (searchMessage (str "abc")) w (str "abc") := by
  have hparse : Protobuf.wire.findUserReq.parse (searchMessage (str "abc")).payload =
      some { type := str "userid", keyword := str "abc" } := by decide +kernel
  have hread : stoi (str "abc") = none := by decide +kernel
  refine ⟨?_, hparse, fun w => ?_⟩
  · have hthrows : Throws (Env.ideal none) (searchMessage (str "abc")) :=
      ⟨rfl, _, hparse, rfl, hread⟩
    have hrecv : ∀ w : World, w.im.Connected 0 →
        step (Env.ideal none) w (.recv 0 (searchMessage (str "abc"))) = .error .uncaught := by
      intro w hw
      rw [step_of_connected hw]
      exact dispatch_throws _ _ _ _ hthrows
    rw [Run.run, step_connect_init]
    show Run.run _ _ [_] = _
    rw [Run.run, hrecv _ ⟨Nat.one_pos, rfl⟩]
  · rintro ⟨rsp, w', hrsp, -⟩
    rw [findUserRsp_of_none hparse rfl hread] at hrsp
    cases hrsp

end AimChat
