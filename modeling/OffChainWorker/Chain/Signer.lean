/-
  The account that the chain acts for: `CosmosSdkChain::get_signer` (`src/chain/cosmos.rs`), and the
  account that `send_tx` asks the node about.

  `get_signer` encodes the address of the configured key, through its hexadecimal text and
  `AccountId::from_str`, under the account prefix of the chain.  `send_tx` takes the account that is
  kept next to the address.
-/
import OffChainWorker.Chain.TxRun
import OffChainWorker.Keyring
import OffChainWorker.Lib.Hex

namespace OffChainWorker.Cosmos

open Proc

/-- `AccountId::from_str`: the twenty bytes of a hexadecimal text. -/
structure AccountId where
  fromStr : String → Option Bytes
  fromStr_hex : ∀ {data : Bytes}, data.length = 20 → fromStr (Hex.encode data) = some data

variable {N : Type} (accountId : AccountId) (bech32 : Keyring.Bech32) (env : Env N)

/-- `encode_to_bech32`. -/
def encodeToBech32 (address accountPrefix : String) : Outcome Kind String := do
  let account ← Outcome.okOr (.invalidKeyAddress address) (accountId.fromStr address)
  Outcome.okOr .bech32Encoding (bech32.encode accountPrefix account)

/-- `get_signer`. -/
def getSigner : Outcome Kind String := do
  let key ← Outcome.okOr .keyBase (env.keybase.getKey env.config.keyName)
  encodeToBech32 accountId bech32 (Hex.encode key.address) env.config.accountPrefix

variable {env}

/-- An address of twenty bytes is encoded as it is. -/
theorem getSigner_eq {key : KeyEntry} (hkey : env.keybase.getKey env.config.keyName = some key)
    (hlength : key.address.length = 20) :
    getSigner accountId bech32 env =
      Outcome.okOr .bech32Encoding (bech32.encode env.config.accountPrefix key.address) := by
  unfold getSigner encodeToBech32
  rw [hkey]
  show (Outcome.okOr _ (accountId.fromStr (Hex.encode key.address)) >>= _) = _
  rw [accountId.fromStr_hex hlength]
  rfl

/-! ## The account asked about -/

/-- The address that a call asks the node about. -/
def NodeCall.address : NodeCall → Option String
  | .account address _ => some address
  | .balance address _ _ => some address
  | _ => none

theorem key_eq {key : KeyEntry} (hkey : env.keybase.getKey env.config.keyName = some key) :
    Cosmos.key env = .ok key := by
  unfold Cosmos.key
  rw [hkey]
  rfl

/-- The queries are about the account of the configured key. -/
theorem Refreshed.address_eq {key : KeyEntry} {calls : List NodeCall}
    {r : Outcome Kind BaseAccount} (h : Refreshed env calls r) (hkey : Cosmos.key env = .ok key) :
    ∀ c ∈ calls, c.address = none ∨ c.address = some key.account := by
  have hsame : ∀ {key' : KeyEntry}, Cosmos.key env = .ok key' → key'.account = key.account :=
    fun hkey' => congrArg KeyEntry.account (Outcome.ok.inj (hkey'.symm.trans hkey))
  intro c hc
  cases h with
  | noKey _ => exact absurd hc List.not_mem_nil
  | failed hkey' | absent hkey' | garbled hkey' _ =>
    obtain rfl := List.mem_singleton.mp hc
    exact .inr (congrArg some (hsame hkey'))
  | noBalance hkey' _ _ | cached hkey' _ =>
    rcases List.mem_cons.mp hc with rfl | hc
    · exact .inr (congrArg some (hsame hkey'))
    · obtain rfl := List.mem_singleton.mp hc
      exact .inr (congrArg some (hsame hkey'))

theorem Sent.address_eq {protoMsgs : List Any} {a : BaseAccount} {calls : List NodeCall}
    {r : Outcome Kind Response} (h : Sent env protoMsgs a calls r) :
    ∀ c ∈ calls, c.address = none := by
  intro c hc
  cases h with
  | unsigned _ | outOfRange _ => exact absurd hc List.not_mem_nil
  | simulated _ hfinished =>
    rcases List.mem_cons.mp hc with rfl | hc
    · rfl
    · cases hfinished with
      | exceeded _ | unsigned _ _ | outOfRange _ _ => exact absurd hc List.not_mem_nil
      | refused _ _ | overflowed _ _ _ | accepted _ _ _ =>
        obtain rfl := List.mem_singleton.mp hc
        rfl

theorem TxRun.address_eq {key : KeyEntry} {protoMsgs : List Any} {calls : List NodeCall}
    {r : Outcome Kind Response} (h : TxRun env protoMsgs calls r)
    (hkey : Cosmos.key env = .ok key) :
    ∀ c ∈ calls, c.address = none ∨ c.address = some key.account := by
  intro c hc
  cases h with
  | noAccount h | crashed h => exact h.address_eq hkey c hc
  | sent h h' =>
    rcases List.mem_append.mp hc with hc | hc
    · exact h.address_eq hkey c hc
    · exact .inl (h'.address_eq c hc)

/-- **Run lemma.**  One `send_tx` asks the node about no other account than that of the configured
    key. -/
theorem txCalls_address {key : KeyEntry}
    (hkey : env.keybase.getKey env.config.keyName = some key) (protoMsgs : List Any)
    (s : ChainState N) :
    ∀ c ∈ txCalls env protoMsgs s, c.address = none ∨ c.address = some key.account := by
  obtain ⟨calls, hlog, hrun⟩ := sendTx_run env protoMsgs (startLog s)
  rw [show txCalls env protoMsgs s = calls from hlog]
  exact hrun.address_eq (key_eq hkey)

end OffChainWorker.Cosmos
