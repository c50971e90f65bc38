/-
  Extraction of events from an RPC event (`src/subscribe/transform.rs`).

  A `NewBlock` RPC event yields one `Event::NewBlock` of its header height; a transaction event
  yields nothing, but the code walks its attributes to print them, with an `unwrap` or an index at
  every step, so each of these lookups is kept here as a possible panic (`attr`).  The printing
  itself is left out.  The JSON parser and the height parser are third-party and enter through
  `Parsers`, as does the way the crate is built.
-/
import OffChainWorker.Events
import OffChainWorker.Lib.Outcome

namespace OffChainWorker

open Proc

/-- The attribute map of an RPC event: the values listed under each key. -/
abbrev Attributes := String → Option (List String)

/-- The part of a block that the extraction reads. -/
structure Header where
  height : Height
deriving Repr, DecidableEq

structure Block where
  header : Header
deriving Repr, DecidableEq

/-- `tendermint_rpc::event::EventData`. -/
inductive EventData where
  | newBlock (block : Option Block)
  | tx
  | genericJsonEvent
deriving Repr, DecidableEq

/-- `tendermint_rpc::event::Event`. -/
structure RpcEvent where
  data : EventData
  events : Option Attributes

/-- What the extraction depends on besides its input. -/
structure Parsers where
  /-- `serde_json::from_str`; of the parsed value only `value[key].to_string()` is used. -/
  json : String → Option (String → String)
  /-- `str::parse::<Height>`, with the text of its error. -/
  height : String → Except String Height
  /-- The build checks integer arithmetic for overflow. -/
  overflowChecks : Bool

/-! ## Strings and numbers -/

/-- `s.replace("\"", "")`. -/
def unquote (s : String) : String :=
  String.ofList (s.toList.filter fun c => c != Char.ofNat 34)

/-- `str::parse::<u32>`: an optional plus sign and decimal digits, that fit. -/
def parseU32 (s : String) : Option Nat :=
  let digits := if s.toList.head? = some (Char.ofNat 43) then s.toList.tail else s.toList
  if digits.isEmpty || !digits.all Char.isDigit then none
  else
    let n := digits.foldl (fun n c => n * 10 + (c.toNat - 48)) 0
    if n < UInt32.size then some n else none

/-! ## The occurrences of the actions -/

/-- `*idx += 1` of a `u32`. -/
def countUp (overflowChecks : Bool) (idx : Nat) : Outcome String Nat :=
  if overflowChecks && decide (UInt32.size ≤ idx + 1) then .panic else .ok ((idx + 1) % UInt32.size)

theorem countUp_of_lt (overflowChecks : Bool) {idx : Nat} (h : idx + 1 < UInt32.size) :
    countUp overflowChecks idx = .ok (idx + 1) := by
  unfold countUp
  rw [decide_eq_false (Nat.not_le.mpr h), Bool.and_false, if_neg Bool.false_ne_true,
    Nat.mod_eq_of_lt h]

theorem countUp_eq_ok {overflowChecks : Bool} {idx next : Nat}
    (h : countUp overflowChecks idx = .ok next) : next = (idx + 1) % UInt32.size := by
  unfold countUp at h
  split at h
  · nomatch h
  · exact (Outcome.ok.inj h).symm

/-- The loop of `extract_helper`; `seen` is the counter map. -/
def numberActions (overflowChecks : Bool) :
    List String → (String → Option Nat) → Outcome String (List (String × Nat))
  | [], _ => return []
  | action :: actions, seen => do
    let idx := (seen action).getD 0
    let next ← countUp overflowChecks idx
    let result ← numberActions overflowChecks actions fun a =>
      if a = action then some next else seen a
    return (action, idx) :: result

/-- `extract_helper`. -/
def extractHelper (overflowChecks : Bool) (events : Attributes) :
    Outcome String (List (String × Nat)) := do
  let actions ← Outcome.okOr "Incorrect Event Type" (events "message.action")
  numberActions overflowChecks actions fun _ => none

/-! ## The transaction branch -/

/-- `events.get(key).unwrap().get(i).unwrap()`, also in its spelling with an index. -/
def attr (events : Attributes) (key : String) (i : Nat) : Outcome String String := do
  let values ← Outcome.unwrap (events key)
  Outcome.unwrap values[i]?

/-- `data_json[key].to_string().replace("\"", "").parse::<u32>().unwrap()`. -/
def jsonU32 (dataJson : String → String) (key : String) : Outcome String Nat :=
  Outcome.unwrap (parseU32 (unquote (dataJson key)))

/-- The `"OracleRequest"` arm. -/
def oracleRequest (p : Parsers) (events : Attributes) (i : Nat) : Outcome String Unit := do
  let _seq ← attr events "send_packet.packet_sequence" i
  let dataStr ← attr events "send_packet.packet_data" i
  let dataJson ← Outcome.unwrap (p.json dataStr)
  let _clientId ← jsonU32 dataJson "client_id"
  let _minCount ← jsonU32 dataJson "min_count"
  let _askCount ← jsonU32 dataJson "ask_count"
  return ()

/-- The `"report"` arm. -/
def report (events : Attributes) (i : Nat) : Outcome String Unit := do
  let _validator ← attr events "report.validator" i
  let id ← attr events "report.id" i
  let _id ← Outcome.unwrap (parseU32 (unquote id))
  return ()

/-- The `"recv_packet"` arm. -/
def recvPacket (p : Parsers) (chainId : String) (events : Attributes) (i : Nat) :
    Outcome String Unit := do
  let _txHash ← attr events "tx.hash" 0
  let _srcChannel ← attr events "recv_packet.packet_src_channel" i
  let _srcPort ← attr events "recv_packet.packet_src_port" i
  let _seq ← attr events "recv_packet.packet_sequence" i
  let packDataStr ← attr events "recv_packet.packet_data" i
  let _dataJson ← Outcome.unwrap (p.json packDataStr)
  if chainId = "bandchain" then
    if (events "request.id").isSome then do
      let _reqId ← attr events "request.id" i
      let _clientId ← attr events "request.client_id" i
      return ()
    else return ()
  else if chainId = "fxdex" then
    if (events "fx.oracle.MsgOracleRequest.status").isSome then do
      let status ← attr events "fx.oracle.MsgOracleRequest.status" i
      if unquote status = "SUCCESS" then do
        let _price ← Outcome.unwrap (events "market_price_updated.market_price")
        return ()
      else return ()
    else return ()
  else return ()

/-- One turn of the loop over the actions. -/
def processAction (p : Parsers) (chainId : String) (events : Attributes) (action : String × Nat) :
    Outcome String Unit :=
  if action.1 = "OracleRequest" then oracleRequest p events action.2
  else if action.1 = "report" then report events action.2
  else if action.1 = "recv_packet" then recvPacket p chainId events action.2
  else return ()

/-- The loop over the actions. -/
def processActions (p : Parsers) (chainId : String) (events : Attributes) :
    List (String × Nat) → Outcome String Unit
  | [] => return ()
  | action :: actions => do
    processAction p chainId events action
    processActions p chainId events actions

/-! ## `extract_rpc_event` -/

/-- The `NewBlock` branch: the event is pushed before the attribute map is looked at, and lost
    again when the map is missing. -/
def extractNewBlock (block : Option Block) (events : Option Attributes) :
    Outcome String (List (Height × Event)) := do
  let block ← Outcome.okOr "tx.height" block
  let vals := [(block.header.height, Event.newBlock ⟨block.header.height⟩)]
  let _events ← Outcome.okOr "missing events" events
  return vals

/-- The `Tx` branch. -/
def extractTx (p : Parsers) (chainId : String) (events : Option Attributes) :
    Outcome String (List (Height × Event)) := do
  let events ← Outcome.okOr "missing events" events
  let heights ← Outcome.okOr "tx.height" (events "tx.height")
  let height ← Outcome.unwrap heights[0]?
  match p.height height with
  | .error e => .err e
  | .ok _ => do
    let actions ← extractHelper p.overflowChecks events
    processActions p chainId events actions
    return []

/-- `extract_rpc_event`. -/
def extractRpcEvent (p : Parsers) (chainId : String) (result : RpcEvent) :
    Outcome String (List (Height × Event)) :=
  match result.data with
  | .newBlock block => extractNewBlock block result.events
  | .tx => extractTx p chainId result.events
  | .genericJsonEvent => return []

/-- A pair as the extraction makes them: the new block of its own height. -/
def IsNewBlock (pair : Height × Event) : Prop := pair.2 = .newBlock ⟨pair.1⟩

/-- A transaction yields no events. -/
theorem extractTx_nil {p : Parsers} {chainId : String} {events : Option Attributes}
    {vals : List (Height × Event)} (h : extractTx p chainId events = .ok vals) : vals = [] := by
  obtain ⟨events, _, h⟩ := Outcome.bind_eq_ok h
  obtain ⟨heights, _, h⟩ := Outcome.bind_eq_ok h
  obtain ⟨height, _, h⟩ := Outcome.bind_eq_ok h
  split at h
  · nomatch h
  · obtain ⟨actions, _, h⟩ := Outcome.bind_eq_ok h
    obtain ⟨_, _, h⟩ := Outcome.bind_eq_ok h
    exact (Outcome.ok.inj h).symm

/-- Whatever the RPC event, every extracted pair is a new block of its own height. -/
theorem extractRpcEvent_isNewBlock {p : Parsers} {chainId : String} {result : RpcEvent}
    {vals : List (Height × Event)} (h : extractRpcEvent p chainId result = .ok vals) :
    ∀ pair ∈ vals, IsNewBlock pair := by
  unfold extractRpcEvent at h
  cases hdata : result.data with
  | newBlock block =>
    rw [hdata] at h
    obtain ⟨b, _, h⟩ := Outcome.bind_eq_ok h
    obtain ⟨_, _, h⟩ := Outcome.bind_eq_ok h
    obtain rfl := Outcome.ok.inj h
    intro pair hpair
    rw [List.mem_singleton.mp hpair]
    rfl
  | tx =>
    rw [hdata] at h
    rw [extractTx_nil h]
    exact fun pair hpair => absurd hpair List.not_mem_nil
  | genericJsonEvent =>
    rw [hdata] at h
    obtain rfl := Outcome.ok.inj h
    exact fun pair hpair => absurd hpair List.not_mem_nil

/-- `collect_events`: the extracted pairs, none on an extraction error
    (`unwrap_or_default`); `none` when the extraction panics. -/
def collectEvents (p : Parsers) (chainId : String) (event : RpcEvent) :
    Option (List (Height × Event)) :=
  match extractRpcEvent p chainId event with
  | .ok vals => some vals
  | .err _ => some []
  | .panic => none

theorem collectEvents_isNewBlock {p : Parsers} {chainId : String} {event : RpcEvent}
    {vals : List (Height × Event)} (h : collectEvents p chainId event = some vals) :
    ∀ pair ∈ vals, IsNewBlock pair := by
  unfold collectEvents at h
  split at h
  · rename_i vals' hvals
    obtain rfl := Option.some.inj h
    exact extractRpcEvent_isNewBlock hvals
  · obtain rfl := Option.some.inj h
    exact fun pair hpair => absurd hpair List.not_mem_nil
  · nomatch h

end OffChainWorker
