import Mathlib.Data.Set.Basic
import Tacenta.Client.SealedState
import Tacenta.Relay.ProtocolCodec

/-!
# What a sealed state binds

Under the assumption that nothing authenticates but what was sealed by an export, a sealed state
that is opened is an exported one from its third byte on. Its first two bytes are outside the
authenticator. The first is fixed, but the second selects the layout of what was sealed: with the
version that carries no address, the bytes of the address are read as the front of the body, and the
state is bound to no address. A handle of 32 bytes is then taken for the identity secret.

A sign-in knows the handle only after the account service has provisioned the identity. Before that
it compares the end of the handle with the identifier, so that a state of another tenant's user of
the same name is provisioned and then refused.

## Main definitions

* `Authentic`: only exported blobs authenticate.
* `Restores`: an opened state is exactly the exported one.
* `Intact`: the version is that of a sealed export, and the exporting client's handle fits its
  length.

## Main results

* `restored_iff_intact`: an opened state is exactly the exported one if and only if it is intact; a
  changed blob is refused unless it was exported itself; and from an intact state only the exported
  identity is restored, at the address of the export.
* `sealed_state_unbound`: with the other version, a handle becomes the identity secret of a party at
  any address; and a state is provisioned under another tenant.
-/

open ByteString Reader Result Tacenta.Core
open Tacenta.Relay (DeviceAddr)

namespace Tacenta.Sealed

variable {π σ : Type} {A : Authenticator} {F : Formats π σ}

/-! ### The formats -/

theorem takeSealedVersion_eq_ok {state sealed : Bytes} {version : UInt8} :
    takeSealedVersion state = .ok (version, sealed) ↔ state = stateTagged :: version :: sealed := by
  cases state with
  | nil => simp [takeSealedVersion]
  | cons first rest =>
    rw [takeSealedVersion.eq_def]
    by_cases hfirst : first = stateTagged
    · subst hfirst
      cases rest <;> simp [eq_comm]
    · simp [hfirst]

theorem run_takeBound_eq_ok {s rest : Bytes} {a : DeviceAddr} :
    takeBound.run s = .ok (a, rest) ↔ a.Fits ∧ s = a.layout ++ rest := by
  simp only [takeBound, run_bind_eq_ok, run_takeLp_eq_ok, run_takeU32_eq_ok,
    run_lift_eq_ok, orRefuse_eq_ok, ofUtf8?_eq_some, run_pure_eq_ok,
    DeviceAddr.layout, DeviceAddr.Fits]
  constructor
  · rintro ⟨_, _, ⟨hfits, rfl⟩, device, _, rfl, user, _, ⟨rfl, rfl⟩, rfl, rfl⟩
    exact ⟨hfits, (List.append_assoc _ _ _).symm⟩
  · rintro ⟨hfits, rfl⟩
    exact ⟨_, _, ⟨hfits, List.append_assoc _ _ _⟩, a.device, rest, rfl, a.user, rest, ⟨rfl, rfl⟩,
      rfl, rfl⟩

theorem splitBound_eq_ok {version : UInt8} {front body : Bytes} {bound : Option DeviceAddr} :
    splitBound version front = .ok (bound, body) ↔
      version = stateVersion6 ∧
        (∃ a : DeviceAddr, a.Fits ∧ front = a.layout ++ body ∧ bound = some a) ∨
        version ≠ stateVersion6 ∧ body = front ∧ bound = none := by
  rw [splitBound]
  split
  · next hv =>
    simp only [bind_eq_ok, pure_eq_ok, Prod.mk.injEq, Prod.exists, run_takeBound_eq_ok, hv,
      not_true_eq_false, false_and, or_false, true_and, ne_eq]
    constructor
    · rintro ⟨a, _, ⟨hfits, rfl⟩, rfl, rfl⟩
      exact ⟨a, hfits, rfl, rfl⟩
    · rintro ⟨a, hfits, rfl, rfl⟩
      exact ⟨a, body, ⟨hfits, rfl⟩, rfl, rfl⟩
  · next hv =>
    simp only [pure_eq_ok, Prod.mk.injEq, hv, false_and, false_or, ne_eq, not_false_eq_true,
      true_and]
    constructor
    · rintro ⟨rfl, rfl⟩
      exact ⟨rfl, rfl⟩
    · rintro ⟨rfl, rfl⟩
      exact ⟨rfl, rfl⟩

theorem openSealed_eq_ok {store : SecureStore} {state : Bytes} {o : Opened} :
    openSealed A store state = .ok o ↔
      ∃ version sealed key front counter highest,
        state = stateTagged :: version :: sealed ∧
        (version = stateVersion5 ∨ version = stateVersion6) ∧ store.wrapKey = .ok key ∧
        unsealPayload A key sealed = .ok ⟨o.generation, front ++ u64Bytes counter⟩ ∧
        splitBound version front = .ok (o.bound, o.body) ∧
        store.rollbackCounter = .ok highest ∧ o.stale = decide (counter < highest) := by
  simp only [openSealed, bind_eq_ok, refuseIf_eq_ok, mapError_eq_ok, pure_eq_ok, Prod.exists,
    takeSealedVersion_eq_ok]
  constructor
  · rintro ⟨version, sealed, rfl, -, hversion, key, hkey, ⟨generation, payload⟩, hu, -, hlen, bound,
      body, hbound, highest, hhighest, rfl⟩
    have hlen8 : 8 ≤ payload.length := not_lt.mp hlen
    obtain ⟨front, last, rfl, hlast⟩ : ∃ front last, payload = front ++ last ∧ last.length = 8 :=
      ⟨payload.take (payload.length - 8), payload.drop (payload.length - 8),
        (List.take_append_drop _ _).symm, by rw [List.length_drop]; omega⟩
    have hfront : (front ++ last).length - 8 = front.length := by
      rw [List.length_append, hlast]
      exact Nat.add_sub_cancel _ _
    rw [hfront, List.take_left] at hbound
    refine ⟨version, sealed, key, front, (ofBe last).toUInt64, highest, rfl, ?_, hkey, ?_, hbound,
      hhighest, ?_⟩
    · exact (not_and_or.mp hversion).imp not_not.mp not_not.mp
    · rw [← eq_u64Bytes_iff.mpr ⟨hlast, rfl⟩]
      exact hu
    · rw [hfront, List.drop_left]
  · rintro ⟨version, sealed, key, front, counter, highest, rfl, hversion, hkey, hu, hbound,
      hhighest, hstale⟩
    have hfront : (front ++ u64Bytes counter).length - 8 = front.length := by
      rw [List.length_append, length_u64Bytes]
      exact Nat.add_sub_cancel _ _
    refine ⟨version, sealed, rfl, (), not_and_or.mpr (hversion.imp not_not.mpr not_not.mpr), key,
      hkey, _, hu, (), ?_, o.bound, o.body, ?_, highest, hhighest, ?_⟩
    · rw [List.length_append, length_u64Bytes]
      omega
    · rw [hfront, List.take_left]
      exact hbound
    · rw [hfront, List.drop_left, (eq_u64Bytes_iff.mp rfl).2, ← hstale]

variable {blob : Bytes} {client : Client π σ} {split : SplitState} {party : OpenParty π σ}
  {services : Services π σ}

theorem exportStateSealed_eq_ok :
    client.exportStateSealed A F = .ok blob ↔
      ∃ store key counter, client.secureStore = some store ∧ store.wrapKey = .ok key ∧
        store.rollbackCounter = .ok counter ∧
        blob = stateTagged :: stateVersion6 ::
          sealPayload A key client.stateGeneration (client.sealedPayload F counter) := by
  simp only [Client.exportStateSealed, bind_eq_ok, orRefuse_eq_ok, mapError_eq_ok, pure_eq_ok]
  constructor
  · rintro ⟨store, hstore, key, hkey, counter, hcounter, rfl⟩
    exact ⟨store, key, counter, hstore, hkey, hcounter, rfl⟩
  · rintro ⟨store, key, counter, hstore, hkey, hcounter, rfl⟩
    exact ⟨store, hstore, key, hkey, counter, hcounter, rfl⟩

theorem identity_of_splitState (h : splitState (client.exportBodyV3 F) = .ok split) :
    split.identity = client.party.identity.val := by
  obtain ⟨tail, hbody⟩ : ∃ tail, client.exportBodyV3 F = stateTagged :: stateVersion3 ::
      client.sessionProvider.toByte :: (lpBytes client.party.identity.val ++ tail) := by
    rw [Client.exportBodyV3, OpenParty.exportIdentity, List.append_assoc, List.append_assoc]
    exact ⟨_, rfl⟩
  have hidentity : (Reader.takeLp truncated).run (lpBytes client.party.identity.val ++ tail) =
      .ok (client.party.identity.val, tail) :=
    run_takeLp_eq_ok.mpr ⟨by rw [FixedBytes.length_val]; decide, rfl⟩
  rw [hbody, splitState, List.head?_cons, if_pos rfl, run'_eq_ok] at h
  obtain ⟨rest, h⟩ := h
  simp only [takeTagged, run_bind_eq_ok, run_takeByte_eq_ok, run_lift_eq_ok,
    List.drop_succ_cons, List.drop_zero, List.cons.injEq] at h
  obtain ⟨version, _, ⟨rfl, rfl⟩, tag, _, ⟨rfl, rfl⟩, provider, _, ⟨-, rfl⟩, h⟩ := h
  rw [if_neg (by decide), if_pos rfl] at h
  simp only [run_bind_eq_ok, run_pure_eq_ok] at h
  obtain ⟨identity, _, hrun, _, _, -, _, _, -, _, _, -, rfl, -⟩ := h
  exact (Prod.mk.inj (Except.ok.inj (hrun.symm.trans hidentity))).1

/-! ### Opened states -/

/-- The client's store has the key. -/
def Client.WrapsWith (client : Client π σ) (key : Key) : Prop :=
  ∃ store, client.secureStore = some store ∧ store.wrapKey = .ok key

variable (A F) in
/-- Nothing authenticates under the key but what one of the clients exported under it. -/
def Authentic (key : Key) (exports : Set (Client π σ)) : Prop :=
  ∀ sealed u, unsealPayload A key sealed = .ok u → ∃ client ∈ exports, client.WrapsWith key ∧
    client.exportStateSealed A F = .ok (stateTagged :: stateVersion6 :: sealed)

variable (A F) in
/-- The opened state is exactly the one that the client exported: the blob is byte for byte the
exported one, and its body, its generation, the counter that was compared with the store's and its
address are the client's. -/
structure Restores (store : SecureStore) (client : Client π σ) (state : Bytes) (o : Opened) : Prop
    where
  exported : client.exportStateSealed A F = .ok state
  body_eq : o.body = client.exportBodyV3 F
  generation_eq : o.generation = client.stateGeneration
  bound_eq : o.bound = some client.me
  stale_eq : ∃ exporting counter highest, client.secureStore = some exporting ∧
    exporting.rollbackCounter = .ok counter ∧ store.rollbackCounter = .ok highest ∧
      o.stale = decide (counter < highest)

/-- The version is the one of a sealed export, and the handle of the exporting client fits its
length. -/
structure Intact (client : Client π σ) (state : Bytes) : Prop where
  version_eq : state[1]? = some stateVersion6
  fits : client.me.Fits

variable {key : Key} {exports : Set (Client π σ)} {store : SecureStore} {state : Bytes} {o : Opened}

theorem Intact.exported (h : Intact client state) (hopen : openSealed A store state = .ok o)
    (hsealed : client.exportStateSealed A F =
      .ok (stateTagged :: stateVersion6 :: state.drop 2)) :
    client.exportStateSealed A F = .ok state := by
  obtain ⟨version, sealed, _, _, _, _, rfl, -⟩ := openSealed_eq_ok.mp hopen
  obtain rfl : version = stateVersion6 := Option.some_inj.mp h.version_eq
  exact hsealed

/-- A state that is opened was exported from its third byte on. -/
theorem exists_exported (hauth : Authentic A F key exports) (hkey : store.wrapKey = .ok key)
    (hopen : openSealed A store state = .ok o) : ∃ client ∈ exports,
      client.exportStateSealed A F = .ok (stateTagged :: stateVersion6 :: state.drop 2) := by
  obtain ⟨version, sealed, key', _, _, _, rfl, -, hkey', hu, -⟩ := openSealed_eq_ok.mp hopen
  obtain rfl : key = key' := Except.ok.inj (hkey.symm.trans hkey')
  obtain ⟨client, hclient, -, hexport⟩ := hauth _ _ hu
  exact ⟨client, hclient, hexport⟩

theorem unsealed_eq {generation generation' : UInt64} {payload payload' : Bytes} {key' : Key}
    (h : unsealPayload A key (sealPayload A key' generation payload) =
      .ok ⟨generation', payload'⟩) : generation' = generation ∧ payload' = payload := by
  obtain ⟨tag, heq, -⟩ := unsealPayload_eq_ok.mp h
  obtain ⟨hbody, -⟩ := List.append_inj' heq
    ((FixedBytes.length_val _).trans (FixedBytes.length_val _).symm)
  obtain ⟨hgen, hpayload⟩ := sealedBody_inj.mp hbody
  exact ⟨hgen.symm, hpayload.symm⟩

/-- An exported blob of a client whose handle fits is opened to what the client exported. -/
theorem restores_of_exported (hfits : client.me.Fits)
    (hexport : client.exportStateSealed A F = .ok state)
    (hopen : openSealed A store state = .ok o) :
    Restores A F store client state o := by
  obtain ⟨exporting, key', counter, hstore, hkey', hcounter, rfl⟩ :=
    exportStateSealed_eq_ok.mp hexport
  obtain ⟨version, sealed, key, front, counter', highest, hstate, -, hkey, hu, hbound, hhighest,
    hstale⟩ := openSealed_eq_ok.mp hopen
  obtain ⟨rfl, rfl⟩ : version = stateVersion6 ∧ sealed = sealPayload A key' client.stateGeneration
      (client.sealedPayload F counter) := by
    rw [List.cons.injEq, List.cons.injEq] at hstate
    exact ⟨hstate.2.1.symm, hstate.2.2.symm⟩
  obtain ⟨hgen, hpayload⟩ := unsealed_eq hu
  obtain ⟨hfront, hlast⟩ := List.append_inj' hpayload (by rw [length_u64Bytes, length_u64Bytes])
  have hcounters : counter' = counter :=
    (eq_u64Bytes_iff.mp rfl).2.symm.trans (eq_u64Bytes_iff.mp hlast).2
  rcases splitBound_eq_ok.mp hbound with ⟨-, a, hafits, hfront', hbound'⟩ | ⟨hne, -, -⟩
  · have hread : takeBound.run (a.layout ++ o.body) = .ok (client.me, client.exportBodyV3 F) :=
      run_takeBound_eq_ok.mpr ⟨hfits, by rw [← hfront', hfront]; rfl⟩
    have hsame := Except.ok.inj ((run_takeBound_eq_ok.mpr ⟨hafits, rfl⟩).symm.trans hread)
    obtain ⟨rfl, hbody⟩ := Prod.mk.inj hsame
    exact ⟨hexport, hbody, hgen, hbound', exporting, counter, highest, hstore, hcounter, hhighest,
      hcounters ▸ hstale⟩
  · exact absurd rfl hne

theorem restores_iff_intact (hopen : openSealed A store state = .ok o)
    (hsealed : client.exportStateSealed A F =
      .ok (stateTagged :: stateVersion6 :: state.drop 2)) :
    Restores A F store client state o ↔ Intact client state := by
  constructor
  · intro hrestores
    obtain ⟨_, _, _, -, -, -, hblob⟩ := exportStateSealed_eq_ok.mp hrestores.exported
    obtain ⟨version, sealed, _, front, _, _, hstate, -, -, -, hbound, -, -⟩ :=
      openSealed_eq_ok.mp hopen
    refine ⟨by rw [hblob]; rfl, ?_⟩
    rcases splitBound_eq_ok.mp hbound with ⟨-, a, hafits, -, hbound'⟩ | ⟨-, -, hnone⟩
    · rw [hrestores.bound_eq, Option.some_inj] at hbound'
      exact hbound' ▸ hafits
    · rw [hrestores.bound_eq] at hnone
      cases hnone
  · intro hintact
    exact restores_of_exported hintact.fits (hintact.exported hopen hsealed) hopen

/-! ### Changed blobs -/

/-- If a byte of an exported blob is changed, other than the version to the one without an address,
and the result was not exported itself, then it is not opened. -/
theorem changed_refused (hauth : Authentic A F key exports) (hkey : store.wrapKey = .ok key)
    (hexport : client.exportStateSealed A F = .ok blob) {i : Nat} {byte : UInt8}
    (hversion : ¬(i = 1 ∧ byte = stateVersion5))
    (hother : ∀ client' ∈ exports, client'.exportStateSealed A F ≠ .ok (blob.set i byte)) :
    ∃ e, openSealed A store (blob.set i byte) = .error e := by
  cases hopen : openSealed A store (blob.set i byte) with
  | error e => exact ⟨e, rfl⟩
  | ok o =>
    obtain ⟨client', hclient', hsealed⟩ := exists_exported hauth hkey hopen
    obtain ⟨version, sealed, _, _, _, _, hset, hversions, -⟩ := openSealed_eq_ok.mp hopen
    obtain ⟨_, _, _, -, -, -, hblob⟩ := exportStateSealed_eq_ok.mp hexport
    rcases hversions with rfl | rfl
    · -- the exported version is the other one, so it is the byte that was changed
      refine absurd ?_ hversion
      have hbyte : (blob.set i byte)[1]? = some stateVersion5 := by rw [hset]; rfl
      rw [hblob, List.getElem?_set] at hbyte
      split at hbyte
      · next hi =>
        subst hi
        exact ⟨rfl, by simpa using hbyte⟩
      · exact absurd (Option.some_inj.mp hbyte) (by decide)
    · rw [hset] at hsealed hother
      exact absurd hsealed (hother client' hclient')

/-! ### Restored parties -/

theorem restorePrekeysInto_identity {party' : OpenParty π σ}
    (h : restorePrekeysInto F party split = .ok party') :
    party'.identity = party.identity ∧ party'.address = party.address := by
  rw [restorePrekeysInto] at h
  split at h
  · obtain rfl := pure_eq_ok.mp h
    exact ⟨rfl, rfl⟩
  · split at h
    · exact OpenParty.importPrekeys_identity (mapError_eq_ok.mp h)
    · obtain rfl := pure_eq_ok.mp h
      exact ⟨rfl, rfl⟩

theorem partyOf_identity {user : String} {device : UInt8}
    (h : partyOf F user device split = .ok party) :
    party.identity.val = split.identity ∧ party.address = ⟨user, device⟩ := by
  simp only [partyOf, bind_eq_ok, mapError_eq_ok] at h
  obtain ⟨built, hbuilt, h⟩ := h
  obtain ⟨hidentity, haddress⟩ := restorePrekeysInto_identity h
  obtain ⟨hbytes, hparty⟩ := OpenParty.fromIdentity_eq_ok.mp hbuilt
  refine ⟨hidentity ▸ hbytes.symm, haddress.trans ?_⟩
  rw [hparty]

theorem Client.restoreSessions_keeps {client' : Client π σ} {provider : SessionProvider}
    {sessions : Bytes} (h : client.restoreSessions F provider sessions = .ok client') :
    client'.party.identity = client.party.identity ∧ client'.me = client.me := by
  rw [Client.restoreSessions] at h
  split at h
  · obtain rfl := pure_eq_ok.mp h
    exact ⟨rfl, rfl⟩
  · simp only [bind_eq_ok, mapError_eq_ok, pure_eq_ok, Prod.exists] at h
    obtain ⟨party, restored, himport, rfl⟩ := h
    exact ⟨(OpenParty.importSessions_identity himport).1, rfl⟩

theorem resume_keeps {client' : Client π σ} (h : resume F services o split client = .ok client') :
    client'.party.identity = client.party.identity ∧ client'.me = client.me := by
  simp only [resume, bind_eq_ok, Client.attachSecureStore, refuseIf_eq_ok, mapError_eq_ok,
    pure_eq_ok] at h
  obtain ⟨restored, hrestored, _, ⟨_, -, _, -, rfl⟩, h⟩ := h
  have hkept := Client.restoreSessions_keeps hrestored
  split at h <;> obtain rfl := pure_eq_ok.mp h <;> split <;> exact hkept

theorem Restores.me_eq (h : Restores A F store client state o) {address : DeviceAddr} {u : Unit}
    (hexpect : o.expectAddress address = .ok u) :
    client.me = address := by
  rw [Opened.expectAddress, h.bound_eq] at hexpect
  exact not_not.mp (refuseIf_eq_ok.mp hexpect)

section Restored

variable (hrestores : ∀ o, openSealed A store state = .ok o → Restores A F store client state o)
include hrestores

/-- The party of a connection is built from the exported identity, at the address of the export. -/
theorem restored_connectParty {config : Config}
    (h : connectParty A F store config state = .ok (o, split, party)) :
    party.identity = client.party.identity ∧ party.address = ⟨config.user, config.device⟩ ∧
      client.me = ⟨config.user, config.device.toUInt32⟩ := by
  simp only [connectParty, bind_eq_ok, pure_eq_ok, Prod.mk.injEq] at h
  obtain ⟨_, hopen, _, hexpect, _, hsplit, _, hparty, rfl, rfl, rfl⟩ := h
  rw [(hrestores _ hopen).body_eq] at hsplit
  obtain ⟨hidentity, haddress⟩ := partyOf_identity hparty
  exact ⟨FixedBytes.val_inj.mp (hidentity.trans (identity_of_splitState hsplit)), haddress,
    (hrestores _ hopen).me_eq hexpect⟩

/-- The party of a sign-in is built from the exported identity, for the device of the export. -/
theorem restored_signInParty {config : AccountConfig}
    (h : signInParty A F store config state = .ok (o, split, party)) :
    openSealed A store state = .ok o ∧ party.identity = client.party.identity ∧
      party.address = ⟨config.identifier, config.device⟩ ∧
        client.me.device = config.device.toUInt32 := by
  simp only [signInParty, bind_eq_ok, pure_eq_ok, Prod.mk.injEq] at h
  obtain ⟨_, hopen, _, hexpect, _, hsplit, _, hparty, rfl, rfl, rfl⟩ := h
  rw [(hrestores _ hopen).body_eq] at hsplit
  rw [Opened.expectUser, (hrestores _ hopen).bound_eq, refuseIf_eq_ok, not_or, not_not] at hexpect
  obtain ⟨hidentity, haddress⟩ := partyOf_identity hparty
  exact ⟨hopen, FixedBytes.val_inj.mp (hidentity.trans (identity_of_splitState hsplit)), haddress,
    hexpect.1⟩

/-- The party of a sign-in is provisioned at the address of the export if the account service
answers with the exported handle; otherwise the sign-in is refused, after that. -/
theorem restored_provision {config : AccountConfig} {prekeys : π} {handle : String}
    (h : signInParty A F store config state = .ok (o, split, party))
    (hprovision : services.provision party = .ok (prekeys, handle)) :
    ((⟨handle, config.device.toUInt32⟩ : DeviceAddr) = client.me ↔ handle = client.me.user) ∧
      (handle ≠ client.me.user → signInWithStateSealed A F services store config state =
        .error (.stateMismatch client.me ⟨handle, config.device.toUInt32⟩)) := by
  obtain ⟨hopen, -, -, hdevice⟩ := restored_signInParty hrestores h
  have hme : (⟨handle, config.device.toUInt32⟩ : DeviceAddr) = client.me ↔
      handle = client.me.user := by
    rw [← hdevice]
    exact ⟨congrArg DeviceAddr.user, fun h => h ▸ rfl⟩
  refine ⟨hme, fun hne => ?_⟩
  have hexpect : o.expectAddress ⟨handle, config.device.toUInt32⟩ =
      .error (.stateMismatch client.me ⟨handle, config.device.toUInt32⟩) := by
    rw [Opened.expectAddress, (hrestores o hopen).bound_eq]
    exact refuseIf_pos fun he => hne (hme.mp he.symm)
  rw [signInWithStateSealed, h, ok_bind]
  dsimp only
  rw [hprovision, ok_bind]
  dsimp only
  rw [hexpect, error_bind]

variable {restored : Client π σ}

/-- The client of a connection has the exported identity and the address of the export. -/
theorem restored_connectWithStateSealed {config : Config}
    (h : connectWithStateSealed A F services store config state = .ok restored) :
    restored.party.identity = client.party.identity ∧ restored.me = client.me := by
  simp only [connectWithStateSealed, bind_eq_ok, Prod.exists] at h
  obtain ⟨o, split, party, hparty, prekeys, -, hresume⟩ := h
  obtain ⟨hidentity, hme⟩ := resume_keeps hresume
  obtain ⟨hbuilt, -, haddress⟩ := restored_connectParty hrestores hparty
  exact ⟨hidentity.trans hbuilt, hme.trans haddress.symm⟩

/-- The client of a sign-in has the exported identity and the address of the export. -/
theorem restored_signInWithStateSealed {config : AccountConfig}
    (h : signInWithStateSealed A F services store config state = .ok restored) :
    restored.party.identity = client.party.identity ∧ restored.me = client.me := by
  simp only [signInWithStateSealed, bind_eq_ok, Prod.exists] at h
  obtain ⟨o, split, party, hparty, prekeys, handle, -, _, hexpect, hresume⟩ := h
  obtain ⟨hidentity, hme⟩ := resume_keeps hresume
  obtain ⟨hopen, hbuilt, -⟩ := restored_signInParty hrestores hparty
  exact ⟨hidentity.trans hbuilt, hme.trans ((hrestores o hopen).me_eq hexpect).symm⟩

end Restored

/-! ### The binding -/

/-- If nothing authenticates but what was exported, then a state that is opened is an exported one
from its third byte on. It is exactly the exported one if and only if it is intact: its version is
that of a sealed export, and the handle of the client that exported it fits its length.

An exported blob with a changed byte, other than the version without an address, is refused unless
the result was exported itself. From an intact state parties and clients are restored only with the
exported identity and at the address of the export. The account service that a sign-in calls decides
about the handle: if it is not the exported one, the identity was provisioned under it when the
sign-in is refused. -/
theorem restored_iff_intact (hauth : Authentic A F key exports) (hkey : store.wrapKey = .ok key) :
    (∀ state o, openSealed A store state = .ok o →
      (∃ client ∈ exports,
        client.exportStateSealed A F = .ok (stateTagged :: stateVersion6 :: state.drop 2)) ∧
      ∀ client ∈ exports,
        client.exportStateSealed A F = .ok (stateTagged :: stateVersion6 :: state.drop 2) →
          (Restores A F store client state o ↔ Intact client state)) ∧
    (∀ client ∈ exports, ∀ blob, client.exportStateSealed A F = .ok blob →
      ∀ i byte, ¬(i = 1 ∧ byte = stateVersion5) →
        (∀ client' ∈ exports, client'.exportStateSealed A F ≠ .ok (blob.set i byte)) →
        ∃ e, openSealed A store (blob.set i byte) = .error e) ∧
    ∀ state o, openSealed A store state = .ok o → ∀ client ∈ exports,
      client.exportStateSealed A F = .ok (stateTagged :: stateVersion6 :: state.drop 2) →
      Intact client state →
        (∀ config split party, connectParty A F store config state = .ok (o, split, party) →
          party.identity = client.party.identity ∧
            party.address = ⟨config.user, config.device⟩ ∧
            client.me = ⟨config.user, config.device.toUInt32⟩) ∧
        (∀ services config restored,
          connectWithStateSealed A F services store config state = .ok restored →
            restored.party.identity = client.party.identity ∧ restored.me = client.me) ∧
        (∀ services config split party prekeys handle,
          signInParty A F store config state = .ok (o, split, party) →
          services.provision party = .ok (prekeys, handle) →
            party.identity = client.party.identity ∧
            party.address = ⟨config.identifier, config.device⟩ ∧
            ((⟨handle, config.device.toUInt32⟩ : DeviceAddr) = client.me ↔
              handle = client.me.user) ∧
            (handle ≠ client.me.user → signInWithStateSealed A F services store config state =
              .error (.stateMismatch client.me ⟨handle, config.device.toUInt32⟩))) ∧
        (∀ services config restored,
          signInWithStateSealed A F services store config state = .ok restored →
            restored.party.identity = client.party.identity ∧ restored.me = client.me) := by
  refine ⟨fun state o hopen => ⟨exists_exported hauth hkey hopen, fun client _ hsealed =>
    restores_iff_intact hopen hsealed⟩, fun client _ blob hexport i byte hversion hother =>
    changed_refused hauth hkey hexport hversion hother, ?_⟩
  intro state o hopen client _ hsealed hintact
  have hrestores (o : Opened) (hopen : openSealed A store state = .ok o) :
      Restores A F store client state o := (restores_iff_intact hopen hsealed).mpr hintact
  refine ⟨?_, ?_, ?_, ?_⟩
  · exact fun config split party h => restored_connectParty hrestores h
  · exact fun services config restored h => restored_connectWithStateSealed hrestores h
  · intro services config split party prekeys handle h hprovision
    obtain ⟨-, hidentity, haddress, -⟩ := restored_signInParty hrestores h
    exact ⟨hidentity, haddress, restored_provision hrestores h hprovision⟩
  · exact fun services config restored h => restored_signInWithStateSealed hrestores h

/-! ### Unbound states -/

/-- A client whose handle has as many bytes as an identity secret. -/
def sampleClient : Client Unit Unit where
  party := ⟨⟨"acme/alice-of-the-front-office-1", 1⟩, .replicate 32 7, none, ∅⟩
  me := ⟨"acme/alice-of-the-front-office-1", 1⟩
  sessions := []
  sessionProvider := .openTacenta
  stateGeneration := 0
  secureStore := some ⟨.ok (.replicate 32 9), .ok 0⟩
  restore := .fresh
  counterSeen := 0

/-- Formats without prekeys and sessions. -/
def sampleFormats : Formats Unit Unit := ⟨fun _ => none, fun _ => [], fun _ => none, fun _ => []⟩

/-- What the client seals, up to the authenticator. -/
def sampleSealed : Bytes := sealedBody 0 (sampleClient.sealedPayload sampleFormats 0)

/-- An authenticator that verifies only what the client sealed. -/
def sampleAuthenticator : Authenticator where
  finalize _ _ := .replicate 32 0
  verify _ bytes tag :=
    decide (bytes = sealLabel ++ sampleSealed) && decide (tag = List.replicate 32 0)

theorem authentic_sample :
    Authentic sampleAuthenticator sampleFormats (.replicate 32 9) {sampleClient} := by
  intro sealed u hu
  obtain ⟨tag, rfl, hverify⟩ := unsealPayload_eq_ok.mp hu
  rw [sampleAuthenticator, Bool.and_eq_true, decide_eq_true_eq, decide_eq_true_eq,
    List.append_right_inj] at hverify
  rw [hverify.1, hverify.2]
  exact ⟨sampleClient, rfl, ⟨_, rfl, rfl⟩, rfl⟩

/-- The store that the client exports with, and that it is restored with. -/
def sampleStore : SecureStore := ⟨.ok (.replicate 32 9), .ok 0⟩

/-- Services that provision the identifier under a tenant. -/
def sampleServices (tenant : String) : Services Unit Unit where
  register _ _ := .ok ()
  provision party := .ok ((), tenant ++ "/" ++ party.address.user)
  witness _ _ := .ok false
  attached := sampleStore

/-- The sign-in of the client. -/
def sampleConfig : AccountConfig := ⟨"alice-of-the-front-office-1", 1⟩

theorem sampleClient_intact (sealed : Bytes) :
    Intact sampleClient (stateTagged :: stateVersion6 :: sealed) := by
  refine ⟨rfl, ?_⟩
  rw [DeviceAddr.Fits]
  decide

set_option maxRecDepth 8000 in
/-- The exported blob is restored; with a changed byte it is refused; and it is provisioned at the
exported address by the services of the client's own tenant. -/
theorem restored_iff_intact_sample : ∃ blob o split party,
    sampleClient.exportStateSealed sampleAuthenticator sampleFormats = .ok blob ∧
      openSealed sampleAuthenticator sampleStore blob = .ok o ∧
      Restores sampleAuthenticator sampleFormats sampleStore sampleClient blob o ∧
      (∃ e, openSealed sampleAuthenticator sampleStore (blob.set 40 0) = .error e) ∧
      signInParty sampleAuthenticator sampleFormats sampleStore sampleConfig blob =
        .ok (o, split, party) ∧
      (sampleServices "acme").provision party = .ok ((), sampleClient.me.user) ∧
      party.identity = sampleClient.party.identity := by
  obtain ⟨sealed, o, split, party, hexport, hopen, hchanged, hparty, hprovision⟩ :
      ∃ sealed o split party, sampleClient.exportStateSealed sampleAuthenticator sampleFormats =
          .ok (stateTagged :: stateVersion6 :: sealed) ∧
        openSealed sampleAuthenticator sampleStore (stateTagged :: stateVersion6 :: sealed) =
          .ok o ∧
        (stateTagged :: stateVersion6 :: sealed).set 40 0 ≠ stateTagged :: stateVersion6 :: sealed ∧
        signInParty sampleAuthenticator sampleFormats sampleStore sampleConfig
          (stateTagged :: stateVersion6 :: sealed) = .ok (o, split, party) ∧
        (sampleServices "acme").provision party = .ok ((), sampleClient.me.user) :=
    ⟨_, _, _, _, rfl, rfl, by decide, rfl, by decide⟩
  have hintact := sampleClient_intact sealed
  have hkey : sampleStore.wrapKey = .ok (.replicate 32 9) := rfl
  obtain ⟨hopened, hrefused, hrestored⟩ := restored_iff_intact authentic_sample hkey
  refine ⟨_, o, split, party, hexport, hopen, ?_, ?_, hparty, hprovision, ?_⟩
  · exact ((hopened _ o hopen).2 sampleClient rfl hexport).mpr hintact
  · refine hrefused sampleClient rfl _ hexport 40 0 (by decide) ?_
    rintro _ rfl h
    exact hchanged (Except.ok.inj (h.symm.trans hexport))
  · exact ((hrestored _ o hopen sampleClient rfl hexport hintact).2.2.1 _ _ _ _ _ _ hparty
      hprovision).1

set_option maxRecDepth 8000 in
/-- With its version byte changed to the version that carries no address, the exported blob of a
client whose handle has 32 bytes is opened, and a connection as somebody else builds a party whose
identity secret is the handle. And the blob as it was exported, given to a sign-in at another
tenant, has the exported identity provisioned under a handle of that tenant before it is refused. -/
theorem sealed_state_unbound :
    Authentic sampleAuthenticator sampleFormats (.replicate 32 9) {sampleClient} ∧
    ∃ blob, sampleClient.exportStateSealed sampleAuthenticator sampleFormats = .ok blob ∧
      (∃ o split party, blob.set 1 stateVersion5 ≠ blob ∧
        openSealed sampleAuthenticator sampleStore (blob.set 1 stateVersion5) = .ok o ∧
        o.bound = none ∧ o.body ≠ sampleClient.exportBodyV3 sampleFormats ∧
        connectParty sampleAuthenticator sampleFormats sampleStore ⟨"mallory", 3⟩
          (blob.set 1 stateVersion5) = .ok (o, split, party) ∧
        party.identity.val = utf8Bytes sampleClient.me.user ∧
        party.identity ≠ sampleClient.party.identity) ∧
      ∃ o split party, signInParty sampleAuthenticator sampleFormats sampleStore sampleConfig blob =
          .ok (o, split, party) ∧
        party.identity = sampleClient.party.identity ∧
        (sampleServices "evil").provision party = .ok ((), "evil/alice-of-the-front-office-1") ∧
        signInWithStateSealed sampleAuthenticator sampleFormats (sampleServices "evil") sampleStore
          sampleConfig blob = .error (.stateMismatch sampleClient.me
            ⟨"evil/alice-of-the-front-office-1", 1⟩) := by
  refine ⟨authentic_sample, _, rfl, ⟨_, _, _, by decide, rfl, rfl, by decide, rfl, rfl, by decide⟩,
    _, _, _, rfl, rfl, by decide, rfl⟩

end Tacenta.Sealed
