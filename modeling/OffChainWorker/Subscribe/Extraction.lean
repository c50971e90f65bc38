/-
  When the extraction of events panics.

  `extract_rpc_event` answers a missing height or a missing action list with an error, but inside
  the branches of the single actions every lookup is an `unwrap` or an index: it counts on the
  `n`-th occurrence of an action in `message.action` having an `n`-th entry in the lists of that
  action's attributes.  Nothing on the chain promises that.

  `Readable` says for each action what its branch counts on, and `Extractable` for a whole RPC
  event.  The branches return nothing but `()`, so a transaction is extracted without a panic iff
  every one of its actions is readable and, where the build checks for overflow, the counters of the
  actions do not overflow (`CountersFit`).
-/
import OffChainWorker.Subscribe.Transform

namespace OffChainWorker

open Proc

/-! ## What the branches count on -/

/-- The `n`-th value listed under a key. -/
def listed (events : Attributes) (key : String) (n : Nat) : Option String := do
  let values ← events key
  values[n]?

/-- A field of a JSON value is a `u32`, quoted or not. -/
def IsU32 (dataJson : String → String) (key : String) : Prop :=
  (parseU32 (unquote (dataJson key))).isSome

/-- What the `"OracleRequest"` branch counts on for the `n`-th occurrence. -/
def OracleRequestReadable (p : Parsers) (events : Attributes) (n : Nat) : Prop :=
  (listed events "send_packet.packet_sequence" n).isSome ∧
  ∃ data, listed events "send_packet.packet_data" n = some data ∧
    ∃ dataJson, p.json data = some dataJson ∧
      IsU32 dataJson "client_id" ∧ IsU32 dataJson "min_count" ∧ IsU32 dataJson "ask_count"

/-- What the `"report"` branch counts on. -/
def ReportReadable (events : Attributes) (n : Nat) : Prop :=
  (listed events "report.validator" n).isSome ∧
  ∃ id, listed events "report.id" n = some id ∧ (parseU32 (unquote id)).isSome

/-- On Band Chain a request that was prepared has an id and a client id. -/
def RequestReadable (events : Attributes) (n : Nat) : Prop :=
  (events "request.id").isSome →
    (listed events "request.id" n).isSome ∧ (listed events "request.client_id" n).isSome

/-- On the exchange a request has a status, and one that succeeded a price. -/
def StatusReadable (events : Attributes) (n : Nat) : Prop :=
  (events "fx.oracle.MsgOracleRequest.status").isSome →
    ∃ status, listed events "fx.oracle.MsgOracleRequest.status" n = some status ∧
      (unquote status = "SUCCESS" → (events "market_price_updated.market_price").isSome)

/-- What the `"recv_packet"` branch counts on. -/
def RecvPacketReadable (p : Parsers) (chainId : String) (events : Attributes) (n : Nat) : Prop :=
  (listed events "tx.hash" 0).isSome ∧
  (listed events "recv_packet.packet_src_channel" n).isSome ∧
  (listed events "recv_packet.packet_src_port" n).isSome ∧
  (listed events "recv_packet.packet_sequence" n).isSome ∧
  (∃ data, listed events "recv_packet.packet_data" n = some data ∧ (p.json data).isSome) ∧
  (chainId = "bandchain" → RequestReadable events n) ∧
  (chainId = "fxdex" → StatusReadable events n)

/-- What the code counts on for the `n`-th occurrence of an action. -/
def Readable (p : Parsers) (chainId : String) (events : Attributes) (action : String) (n : Nat) :
    Prop :=
  (action = "OracleRequest" → OracleRequestReadable p events n) ∧
  (action = "report" → ReportReadable events n) ∧
  (action = "recv_packet" → RecvPacketReadable p chainId events n)

/-- Where the build checks for overflow, no action comes so often that its counter overflows. -/
def CountersFit (overflowChecks : Bool) (actions : List String) : Prop :=
  overflowChecks = true → ∀ action, actions.count action < UInt32.size

/-- Every action of a transaction is readable, each at the number of its earlier occurrences. -/
def ActionsReadable (p : Parsers) (chainId : String) (events : Attributes)
    (actions : List String) : Prop :=
  CountersFit p.overflowChecks actions ∧
  ∀ before action after, actions = before ++ action :: after →
    Readable p chainId events action (before.count action % UInt32.size)

/-- A transaction that lists its height has a first one, and when that is a height, its actions
    are readable. -/
def TxReadable (p : Parsers) (chainId : String) (events : Attributes) : Prop :=
  ∀ heights, events "tx.height" = some heights →
    ∃ first, heights[0]? = some first ∧
      ∀ height, p.height first = .ok height →
        ∀ actions, events "message.action" = some actions →
          ActionsReadable p chainId events actions

/-- The attributes of an RPC event, if it is a transaction, are readable. -/
def Extractable (p : Parsers) (chainId : String) (result : RpcEvent) : Prop :=
  result.data = .tx → ∀ events, result.events = some events → TxReadable p chainId events

/-! ## The branches -/

theorem attr_eq (events : Attributes) (key : String) (n : Nat) :
    attr events key n = Outcome.unwrap (listed events key n) := by
  unfold attr listed
  cases events key <;> rfl

/-- A lookup in front of the rest of a branch. -/
theorem attr_bind_ne_panic {α : Type} {events : Attributes} {key : String} {n : Nat}
    {f : String → Outcome String α} :
    (attr events key n >>= f) ≠ .panic ↔ ∃ v, listed events key n = some v ∧ f v ≠ .panic := by
  rw [attr_eq]
  exact Outcome.unwrap_bind_ne_panic

theorem jsonU32_bind_ne_panic {α : Type} {dataJson : String → String} {key : String}
    {f : Nat → Outcome String α} :
    (jsonU32 dataJson key >>= f) ≠ .panic ↔
      ∃ n, parseU32 (unquote (dataJson key)) = some n ∧ f n ≠ .panic :=
  Outcome.unwrap_bind_ne_panic

theorem oracleRequest_ne_panic (p : Parsers) (events : Attributes) (n : Nat) :
    oracleRequest p events n ≠ .panic ↔ OracleRequestReadable p events n := by
  unfold oracleRequest OracleRequestReadable IsU32
  simp only [attr_bind_ne_panic, Outcome.unwrap_bind_ne_panic, jsonU32_bind_ne_panic,
    Option.isSome_iff_exists]
  constructor
  · rintro ⟨seq, hseq, data, hdata, dataJson, hjson, c, hc, m, hm, a, ha, -⟩
    exact ⟨⟨seq, hseq⟩, data, hdata, dataJson, hjson, ⟨c, hc⟩, ⟨m, hm⟩, ⟨a, ha⟩⟩
  · rintro ⟨⟨seq, hseq⟩, data, hdata, dataJson, hjson, ⟨c, hc⟩, ⟨m, hm⟩, ⟨a, ha⟩⟩
    exact ⟨seq, hseq, data, hdata, dataJson, hjson, c, hc, m, hm, a, ha, Outcome.ok_ne_panic ()⟩

theorem report_ne_panic (events : Attributes) (n : Nat) :
    report events n ≠ .panic ↔ ReportReadable events n := by
  unfold report ReportReadable
  simp only [attr_bind_ne_panic, Outcome.unwrap_bind_ne_panic, Option.isSome_iff_exists]
  constructor
  · rintro ⟨v, hv, id, hid, k, hk, -⟩
    exact ⟨⟨v, hv⟩, id, hid, k, hk⟩
  · rintro ⟨⟨v, hv⟩, id, hid, k, hk⟩
    exact ⟨v, hv, id, hid, k, hk, Outcome.ok_ne_panic ()⟩

/-- The Band Chain part of `recv_packet`. -/
theorem bandchain_ne_panic (events : Attributes) (n : Nat) :
    (if (events "request.id").isSome then do
        let _reqId ← attr events "request.id" n
        let _clientId ← attr events "request.client_id" n
        return ()
      else return () : Outcome String Unit) ≠ .panic ↔ RequestReadable events n := by
  unfold RequestReadable
  split
  · rename_i hid
    simp only [attr_bind_ne_panic, Option.isSome_iff_exists]
    constructor
    · rintro ⟨v, hv, w, hw, -⟩ _
      exact ⟨⟨v, hv⟩, ⟨w, hw⟩⟩
    · intro h
      obtain ⟨⟨v, hv⟩, ⟨w, hw⟩⟩ := h (Option.isSome_iff_exists.mp hid)
      exact ⟨v, hv, w, hw, Outcome.ok_ne_panic ()⟩
  · rename_i hid
    exact ⟨fun _ h => absurd h hid, fun _ => Outcome.ok_ne_panic ()⟩

/-- The exchange's part of `recv_packet`. -/
theorem fxdex_ne_panic (events : Attributes) (n : Nat) :
    (if (events "fx.oracle.MsgOracleRequest.status").isSome then do
        let status ← attr events "fx.oracle.MsgOracleRequest.status" n
        if unquote status = "SUCCESS" then do
          let _price ← Outcome.unwrap (events "market_price_updated.market_price")
          return ()
        else return ()
      else return () : Outcome String Unit) ≠ .panic ↔ StatusReadable events n := by
  have hprice : ∀ status : String,
      (if unquote status = "SUCCESS" then do
          let _price ← Outcome.unwrap (events "market_price_updated.market_price")
          return ()
        else return () : Outcome String Unit) ≠ .panic ↔
      (unquote status = "SUCCESS" → (events "market_price_updated.market_price").isSome) := by
    intro status
    split
    · rename_i hs
      rw [Outcome.unwrap_bind_ne_panic, Option.isSome_iff_exists]
      exact ⟨fun ⟨a, ha, _⟩ _ => ⟨a, ha⟩, fun h => (h hs).imp fun a ha =>
        ⟨ha, Outcome.ok_ne_panic ()⟩⟩
    · rename_i hs
      exact ⟨fun _ h => absurd h hs, fun _ => Outcome.ok_ne_panic ()⟩
  unfold StatusReadable
  split
  · rename_i hstatus
    rw [attr_bind_ne_panic]
    simp only [hprice]
    exact ⟨fun h _ => h, fun h => h hstatus⟩
  · rename_i hstatus
    exact ⟨fun _ h => absurd h hstatus, fun _ => Outcome.ok_ne_panic ()⟩

/-- Each chain has its own part. -/
theorem chain_ne_panic {chainId : String} {band fxdex : Outcome String Unit} {P Q : Prop}
    (hband : band ≠ .panic ↔ P) (hfxdex : fxdex ≠ .panic ↔ Q) :
    (if chainId = "bandchain" then band else if chainId = "fxdex" then fxdex else return ())
        ≠ .panic ↔
      (chainId = "bandchain" → P) ∧ (chainId = "fxdex" → Q) := by
  by_cases hb : chainId = "bandchain"
  · have hne : chainId ≠ "fxdex" := by rw [hb]; decide
    rw [if_pos hb, hband]
    exact ⟨fun h => ⟨fun _ => h, fun heq => absurd heq hne⟩, fun h => h.1 hb⟩
  · rw [if_neg hb]
    by_cases hf : chainId = "fxdex"
    · rw [if_pos hf, hfxdex]
      exact ⟨fun h => ⟨fun heq => absurd heq hb, fun _ => h⟩, fun h => h.2 hf⟩
    · rw [if_neg hf]
      exact ⟨fun _ => ⟨fun heq => absurd heq hb, fun heq => absurd heq hf⟩,
        fun _ => Outcome.ok_ne_panic ()⟩

theorem recvPacket_ne_panic (p : Parsers) (chainId : String) (events : Attributes) (n : Nat) :
    recvPacket p chainId events n ≠ .panic ↔ RecvPacketReadable p chainId events n := by
  unfold recvPacket RecvPacketReadable
  simp only [attr_bind_ne_panic, Outcome.unwrap_bind_ne_panic,
    chain_ne_panic (bandchain_ne_panic events n) (fxdex_ne_panic events n)]
  constructor
  · rintro ⟨hash, hhash, channel, hchannel, port, hport, seq, hseq, data, hdata, json, hjson,
      hrequest, hstatus⟩
    exact ⟨Option.isSome_of_eq_some hhash, Option.isSome_of_eq_some hchannel,
      Option.isSome_of_eq_some hport, Option.isSome_of_eq_some hseq,
      ⟨data, hdata, Option.isSome_of_eq_some hjson⟩, hrequest, hstatus⟩
  · rintro ⟨hhash, hchannel, hport, hseq, ⟨data, hdata, hjson⟩, hrequest, hstatus⟩
    obtain ⟨hash, hhash⟩ := Option.isSome_iff_exists.mp hhash
    obtain ⟨channel, hchannel⟩ := Option.isSome_iff_exists.mp hchannel
    obtain ⟨port, hport⟩ := Option.isSome_iff_exists.mp hport
    obtain ⟨seq, hseq⟩ := Option.isSome_iff_exists.mp hseq
    obtain ⟨json, hjson⟩ := Option.isSome_iff_exists.mp hjson
    exact ⟨hash, hhash, channel, hchannel, port, hport, seq, hseq, data, hdata, json, hjson,
      hrequest, hstatus⟩

/-! ## The loop over the actions -/

theorem processAction_ne_panic (p : Parsers) (chainId : String) (events : Attributes)
    (action : String) (n : Nat) :
    processAction p chainId events (action, n) ≠ .panic ↔ Readable p chainId events action n := by
  unfold processAction Readable
  by_cases ho : action = "OracleRequest"
  · rw [if_pos ho, oracleRequest_ne_panic]
    refine ⟨fun h => ⟨fun _ => h, fun heq => ?_, fun heq => ?_⟩, fun h => h.1 ho⟩
    · exact absurd (ho.symm.trans heq) (by decide)
    · exact absurd (ho.symm.trans heq) (by decide)
  rw [if_neg ho]
  by_cases hr : action = "report"
  · rw [if_pos hr, report_ne_panic]
    refine ⟨fun h => ⟨fun heq => absurd heq ho, fun _ => h, fun heq => ?_⟩, fun h => h.2.1 hr⟩
    exact absurd (hr.symm.trans heq) (by decide)
  rw [if_neg hr]
  by_cases hp : action = "recv_packet"
  · rw [if_pos hp, recvPacket_ne_panic]
    exact ⟨fun h => ⟨fun heq => absurd heq ho, fun heq => absurd heq hr, fun _ => h⟩,
      fun h => h.2.2 hp⟩
  rw [if_neg hp]
  exact ⟨fun _ => ⟨fun heq => absurd heq ho, fun heq => absurd heq hr, fun heq => absurd heq hp⟩,
    fun _ => Outcome.ok_ne_panic ()⟩

/-! ### No branch returns an error -/

theorem NoError.attr_bind {α : Type} {events : Attributes} {key : String} {n : Nat}
    {f : String → Outcome String α} (hf : ∀ v, Outcome.NoError (f v)) :
    Outcome.NoError (attr events key n >>= f) := by
  rw [attr_eq]
  exact .unwrap_bind hf

theorem oracleRequest_noError (p : Parsers) (events : Attributes) (n : Nat) :
    (oracleRequest p events n).NoError := by
  refine NoError.attr_bind fun _ => NoError.attr_bind fun _ => .unwrap_bind fun _ => ?_
  exact .unwrap_bind fun _ => .unwrap_bind fun _ => .unwrap_bind fun _ => Outcome.noError_pure ()

theorem report_noError (events : Attributes) (n : Nat) : (report events n).NoError := by
  refine NoError.attr_bind fun _ => NoError.attr_bind fun _ => .unwrap_bind fun _ => ?_
  exact Outcome.noError_pure ()

theorem recvPacket_noError (p : Parsers) (chainId : String) (events : Attributes) (n : Nat) :
    (recvPacket p chainId events n).NoError := by
  refine NoError.attr_bind fun _ => NoError.attr_bind fun _ => NoError.attr_bind fun _ => ?_
  refine NoError.attr_bind fun _ => NoError.attr_bind fun _ => .unwrap_bind fun _ => ?_
  split
  · split
    · exact NoError.attr_bind fun _ => NoError.attr_bind fun _ => Outcome.noError_pure ()
    · exact Outcome.noError_pure ()
  · split
    · split
      · refine NoError.attr_bind fun status => ?_
        split
        · exact .unwrap_bind fun _ => Outcome.noError_pure ()
        · exact Outcome.noError_pure ()
      · exact Outcome.noError_pure ()
    · exact Outcome.noError_pure ()

theorem processAction_noError (p : Parsers) (chainId : String) (events : Attributes)
    (action : String × Nat) : (processAction p chainId events action).NoError := by
  unfold processAction
  split
  · exact oracleRequest_noError p events action.2
  · split
    · exact report_noError events action.2
    · split
      · exact recvPacket_noError p chainId events action.2
      · exact Outcome.noError_pure ()

/-! ## The loop over the actions -/

theorem processActions_ne_panic (p : Parsers) (chainId : String) (events : Attributes)
    (actions : List (String × Nat)) :
    processActions p chainId events actions ≠ .panic ↔
      ∀ a n, (a, n) ∈ actions → Readable p chainId events a n := by
  induction actions with
  | nil => exact ⟨fun _ _ _ h => absurd h List.not_mem_nil, fun _ => Outcome.ok_ne_panic ()⟩
  | cons action actions ih =>
    obtain ⟨a, n⟩ := action
    rw [processActions, Outcome.bind_ne_panic]
    constructor
    · rintro ⟨hfirst, hrest⟩ a' n' hmem
      rcases List.mem_cons.mp hmem with heq | hmem
      · obtain ⟨rfl, rfl⟩ := Prod.mk.inj heq
        exact (processAction_ne_panic p chainId events a' n').mp hfirst
      · -- the first action returned, so the loop has gone on
        obtain ⟨_, hok⟩ := (processAction_noError p chainId events (a, n)).exists_ok hfirst
        exact ih.mp (hrest () hok) a' n' hmem
    · intro hall
      refine ⟨(processAction_ne_panic p chainId events a n).mpr (hall a n List.mem_cons_self), ?_⟩
      exact fun _ _ => ih.mpr fun a' n' hmem => hall a' n' (List.mem_cons_of_mem _ hmem)

/-! ## The numbers of the actions -/

theorem countUp_ne_panic (overflowChecks : Bool) (idx : Nat) :
    countUp overflowChecks idx ≠ .panic ↔ (overflowChecks = true → idx + 1 < UInt32.size) := by
  by_cases hlt : idx + 1 < UInt32.size
  · rw [countUp_of_lt overflowChecks hlt]
    exact iff_of_true (Outcome.ok_ne_panic _) fun _ => hlt
  unfold countUp
  rw [decide_eq_true (Nat.not_lt.mp hlt), Bool.and_true]
  cases overflowChecks with
  | true => exact iff_of_false (fun h => h rfl) fun h => hlt (h rfl)
  | false => exact iff_of_true (Outcome.ok_ne_panic _) fun h => absurd h Bool.false_ne_true

theorem countUp_noError (overflowChecks : Bool) (idx : Nat) :
    (countUp overflowChecks idx).NoError := by
  intro e
  unfold countUp
  split <;> exact fun h => nomatch h

/-- The counters after an action that has come `next` times. -/
theorem getD_counted (seen : String → Option Nat) (action : String) (next : Nat) (a : String) :
    (if a = action then some next else seen a).getD 0 =
      if a = action then next else (seen a).getD 0 := by
  split <;> rfl

theorem numberActions_noError (overflowChecks : Bool) (actions : List String)
    (seen : String → Option Nat) : (numberActions overflowChecks actions seen).NoError := by
  induction actions generalizing seen with
  | nil => exact Outcome.noError_pure []
  | cons action actions ih =>
    exact (countUp_noError _ _).bind fun _ => (ih _).bind fun _ => Outcome.noError_pure _

/-- An action and those after it: its own occurrence goes to the counters. -/
theorem counted_add (seen : String → Option Nat) (action : String) (actions : List String)
    (a : String) :
    (seen a).getD 0 + (action :: actions).count a =
      (if a = action then (seen action).getD 0 + 1 else (seen a).getD 0) + actions.count a := by
  rw [List.count_cons]
  by_cases ha : a = action
  · rw [if_pos ha, ha, beq_self_eq_true, if_pos rfl]
    omega
  · rw [if_neg ha, beq_eq_false_iff_ne.mpr (Ne.symm ha)]
    rfl

/-- One turn of the loop: the counter of the first action, and then the others. -/
theorem numberActions_cons_ne_panic (overflowChecks : Bool) (action : String)
    (actions : List String) (seen : String → Option Nat) :
    numberActions overflowChecks (action :: actions) seen ≠ .panic ↔
      (overflowChecks = true → (seen action).getD 0 + 1 < UInt32.size) ∧
        ∀ next, countUp overflowChecks ((seen action).getD 0) = .ok next →
          numberActions overflowChecks actions (fun a =>
            if a = action then some next else seen a) ≠ .panic := by
  rw [numberActions, Outcome.bind_ne_panic, countUp_ne_panic]
  refine and_congr_right fun _ => forall_congr' fun next => forall_congr' fun _ => ?_
  rw [Outcome.bind_ne_panic]
  exact and_iff_left fun _ _ => Outcome.ok_ne_panic _

/-- The counters do not overflow iff the build does not check, or no action comes too often. -/
theorem numberActions_ne_panic {overflowChecks : Bool} {actions : List String}
    {seen : String → Option Nat} (hseen : ∀ a, (seen a).getD 0 < UInt32.size) :
    numberActions overflowChecks actions seen ≠ .panic ↔
      (overflowChecks = true → ∀ a, (seen a).getD 0 + actions.count a < UInt32.size) := by
  induction actions generalizing seen with
  | nil => exact iff_of_true (Outcome.ok_ne_panic []) fun _ a => hseen a
  | cons action actions ih =>
    -- the counters after the first action
    have hrest : ∀ next, next < UInt32.size →
        (numberActions overflowChecks actions (fun a => if a = action then some next else seen a) ≠
          .panic ↔ (overflowChecks = true → ∀ a,
            (if a = action then next else (seen a).getD 0) + actions.count a < UInt32.size)) := by
      intro next hnext
      simp only [← getD_counted]
      refine ih fun a => ?_
      rw [getD_counted]
      split
      · exact hnext
      · exact hseen a
    simp only [numberActions_cons_ne_panic, counted_add]
    constructor
    · rintro ⟨hfirst, hgoes⟩ hchecks
      have hlt := hfirst hchecks
      exact (hrest _ hlt).mp (hgoes _ (countUp_of_lt overflowChecks hlt)) hchecks
    · intro hall
      have hfirst : overflowChecks = true → (seen action).getD 0 + 1 < UInt32.size := by
        intro hchecks
        have hlt := hall hchecks action
        rw [if_pos rfl] at hlt
        omega
      refine ⟨hfirst, fun next hnext => ?_⟩
      obtain rfl := countUp_eq_ok hnext
      refine (hrest _ (Nat.mod_lt _ (by decide))).mpr fun hchecks => ?_
      rw [Nat.mod_eq_of_lt (hfirst hchecks)]
      exact hall hchecks

/-- The occurrences are numbered on from the counters, action by action. -/
theorem mem_numberActions {overflowChecks : Bool} {actions : List String}
    {seen : String → Option Nat} {numbered : List (String × Nat)}
    (hseen : ∀ a, (seen a).getD 0 < UInt32.size)
    (hnumbered : numberActions overflowChecks actions seen = .ok numbered) (a : String) (n : Nat) :
    (a, n) ∈ numbered ↔
      ∃ before after, actions = before ++ a :: after ∧
        n = ((seen a).getD 0 + before.count a) % UInt32.size := by
  induction actions generalizing seen numbered with
  | nil =>
    obtain rfl := Outcome.ok.inj hnumbered
    exact ⟨fun h => absurd h List.not_mem_nil, fun ⟨_, _, h, _⟩ => absurd h (by simp)⟩
  | cons action actions ih =>
    obtain ⟨next, hnext, hnumbered⟩ := Outcome.bind_eq_ok hnumbered
    obtain ⟨result, hresult, hnumbered⟩ := Outcome.bind_eq_ok hnumbered
    obtain rfl := Outcome.ok.inj hnumbered
    obtain rfl := countUp_eq_ok hnext
    have hbound : ∀ b, (if b = action then some (((seen action).getD 0 + 1) % UInt32.size)
        else seen b).getD 0 < UInt32.size := by
      intro b
      rw [getD_counted]
      split
      · exact Nat.mod_lt _ (by decide)
      · exact hseen b
    have hrest := ih hbound hresult
    simp only [getD_counted] at hrest
    have hcount : ∀ before : List String,
        ((if a = action then ((seen action).getD 0 + 1) % UInt32.size else (seen a).getD 0) +
            before.count a) % UInt32.size =
          ((seen a).getD 0 + (action :: before).count a) % UInt32.size := by
      intro before
      rw [counted_add]
      split
      · exact Nat.mod_add_mod ..
      · rfl
    rw [List.mem_cons]
    constructor
    · rintro (heq | hmem)
      · obtain ⟨rfl, rfl⟩ := Prod.mk.inj heq
        exact ⟨[], actions, rfl, (Nat.mod_eq_of_lt (hseen a)).symm⟩
      · obtain ⟨before, after, rfl, hn⟩ := hrest.mp hmem
        exact ⟨action :: before, after, rfl, hn.trans (hcount before)⟩
    · rintro ⟨before, after, hsplit, hn⟩
      cases before with
      | nil =>
        obtain ⟨rfl, rfl⟩ := List.cons.inj hsplit
        have hn' : n = (seen action).getD 0 := hn.trans (Nat.mod_eq_of_lt (hseen action))
        exact .inl (by rw [hn'])
      | cons b before =>
        obtain ⟨rfl, rfl⟩ := List.cons.inj hsplit
        exact .inr (hrest.mpr ⟨before, after, rfl, hn.trans (hcount before).symm⟩)

/-! ## Headline -/

theorem actionsReadable_iff (p : Parsers) (chainId : String) (events : Attributes)
    (actions : List String) :
    (numberActions p.overflowChecks actions (fun _ => none) >>=
        processActions p chainId events) ≠ .panic ↔
      ActionsReadable p chainId events actions := by
  have hfit : numberActions p.overflowChecks actions (fun _ => none) ≠ .panic ↔
      CountersFit p.overflowChecks actions := by
    rw [numberActions_ne_panic fun _ => by decide]
    refine forall_congr' fun _ => forall_congr' fun a => ?_
    rw [Option.getD_none, Nat.zero_add]
  rw [Outcome.bind_ne_panic, hfit]
  refine and_congr_right fun hchecks => ?_
  obtain ⟨numbered, hnumbered⟩ :=
    (numberActions_noError p.overflowChecks actions fun _ => none).exists_ok
      (hfit.mpr hchecks)
  have hmem := mem_numberActions (fun _ => by decide) hnumbered
  simp only [hnumbered, Outcome.ok.injEq, forall_eq', processActions_ne_panic]
  constructor
  · intro h before action after hsplit
    refine h action _ ((hmem action _).mpr ⟨before, after, hsplit, ?_⟩)
    exact congrArg (· % UInt32.size) (Nat.zero_add _).symm
  · intro h action n hn
    obtain ⟨before, after, hsplit, hcount⟩ := (hmem action n).mp hn
    have hread := h before action after hsplit
    rw [hcount, show ((none : Option Nat).getD 0 + before.count action) = before.count action from
      Nat.zero_add _]
    exact hread

theorem extractTx_ne_panic (p : Parsers) (chainId : String) (events : Option Attributes) :
    extractTx p chainId events ≠ .panic ↔
      ∀ attrs, events = some attrs → TxReadable p chainId attrs := by
  unfold extractTx TxReadable
  simp only [Outcome.okOr_bind_ne_panic, Outcome.unwrap_bind_ne_panic]
  refine forall_congr' fun attrs => forall_congr' fun _ => forall_congr' fun heights =>
    forall_congr' fun _ => exists_congr fun first => and_congr_right fun _ => ?_
  cases hheight : p.height first with
  | error e => exact ⟨fun _ _ h => (nomatch h), fun _ h => (nomatch h)⟩
  | ok height =>
    -- what follows the actions cannot fail any more
    have hactions : ∀ actions : List String,
        (numberActions p.overflowChecks actions (fun _ => none) >>= fun numbered =>
          processActions p chainId attrs numbered >>= fun _ =>
            (pure [] : Outcome String (List (Height × Event)))) ≠ .panic ↔
        ActionsReadable p chainId attrs actions := by
      intro actions
      rw [← actionsReadable_iff, Outcome.bind_ne_panic, Outcome.bind_ne_panic]
      refine and_congr_right fun _ => forall_congr' fun numbered => forall_congr' fun _ => ?_
      rw [Outcome.bind_ne_panic]
      exact and_iff_left fun _ _ => Outcome.ok_ne_panic []
    have hhelper : ∀ f : List (String × Nat) → Outcome String (List (Height × Event)),
        (extractHelper p.overflowChecks attrs >>= f) ≠ .panic ↔
        ∀ actions, attrs "message.action" = some actions →
          (numberActions p.overflowChecks actions (fun _ => none) >>= f) ≠ .panic := by
      intro f
      unfold extractHelper
      cases attrs "message.action" with
      | none => exact ⟨fun _ _ h => (nomatch h), fun _ h => (nomatch h)⟩
      | some actions =>
        refine ⟨fun h actions' ha => ?_, fun h => h actions rfl⟩
        rw [← Option.some.inj ha]
        exact h
    show (extractHelper p.overflowChecks attrs >>= _) ≠ .panic ↔ _
    rw [hhelper]
    simp only [hactions]
    exact ⟨fun h _ _ => h, fun h => h height rfl⟩

/-- **Headline.**  The extraction of an RPC event returns, with events or an error, iff the event is
    no transaction or its attributes are readable. -/
theorem extractRpcEvent_ne_panic_iff (p : Parsers) (chainId : String) (result : RpcEvent) :
    extractRpcEvent p chainId result ≠ .panic ↔ Extractable p chainId result := by
  obtain ⟨data, events⟩ := result
  cases data with
  | newBlock block =>
    refine ⟨fun _ h => (nomatch h), fun _ => ?_⟩
    cases block <;> cases events <;> exact fun h => nomatch h
  | genericJsonEvent => exact ⟨fun _ h => (nomatch h), fun _ => fun h => (nomatch h)⟩
  | tx =>
    exact (extractTx_ne_panic p chainId events).trans ⟨fun h _ => h, fun h => h rfl⟩

/-- Decimal heights, and no JSON. -/
def decimalParsers : Parsers where
  json _ := none
  height s :=
    match parseU32 s with
    | some height => .ok height
    | none => .error "parse error"
  overflowChecks := true

/-- A transaction of height 7 with the action `"report"` and nothing about a report. -/
def bareReport : RpcEvent where
  data := .tx
  events := some fun key =>
    if key = "tx.height" then some ["7"]
    else if key = "message.action" then some ["report"]
    else none

/-- Its extraction panics. -/
theorem bare_report_panics :
    ¬ ∀ (p : Parsers) (chainId : String) (result : RpcEvent),
      extractRpcEvent p chainId result ≠ .panic := by
  intro h
  have hrun : extractRpcEvent decimalParsers "bandchain" bareReport = .panic := by decide
  exact h decimalParsers "bandchain" bareReport hrun

end OffChainWorker
