import BpcProtocol.Durable.PairRoundTrip
import BpcProtocol.Transport.Delivery

set_option autoImplicit false

/-! # What an acknowledgement is bound to

A reply that verifies was signed by the receiver, for a request that the attempt itself had signed.
The frames tell requests from replies and show every part; the canonical form of a receipt shows its
members. -/

namespace Transport

open Fallible Ha Async Encoding

/-! ## Frames -/

theorem framed_eq_ok {parts : List JsString} {message : Bytes} :
    framed parts = .ok message ↔ (∀ part ∈ parts, Fits part) ∧ message = frame parts := by
  simp only [framed, bind_eq_ok, require_eq_ok, exists_unit, pure_eq_ok]
  exact and_congr_right fun _ => eq_comm

/-- A part under its length. -/
theorem part_selfDelimiting :
    SelfDelimiting (fun b : Bytes => b.length < 0x100000000) fun b => Js.u32be b.length ++ b :=
  Js.u32be_selfDelimiting.lengthPrefixed (fun _ h => h) fun _ _ _ _ h => h

theorem frame_eq (parts : List JsString) :
    frame parts = (parts.map Js.utf8).flatMap fun b => Js.u32be b.length ++ b := by
  rw [List.flatMap_map]
  rfl

/-- **Frames show their parts**, as far as UTF-8 does. -/
theorem parts_of_framed {ps qs : List JsString} {message : Bytes} (hp : framed ps = .ok message)
    (hq : framed qs = .ok message) : ps.map Js.utf8 = qs.map Js.utf8 := by
  obtain ⟨hfits, rfl⟩ := framed_eq_ok.mp hp
  obtain ⟨hfits', heq⟩ := framed_eq_ok.mp hq
  rw [frame_eq, frame_eq] at heq
  refine part_selfDelimiting.flatMap_injective (fun b _ hnil => ?_)
    (List.forall_mem_map.mpr hfits) (List.forall_mem_map.mpr hfits') heq
  cases (List.append_eq_nil_iff.mp hnil).1

/-- A request is not a reply. -/
theorem request_ne_ack {keyId path ts nonce digest keyId' challenge digest' path' text : JsString}
    {message : Bytes} (hreq : framed (requestParts keyId path ts nonce digest) = .ok message)
    (hack : framed (ackParts keyId' challenge digest' path' text) = .ok message) : False := by
  have hparts := parts_of_framed hreq hack
  exact absurd (congrArg List.length hparts) (by simp [requestParts, ackParts])

theorem ascii_of_nonceRe {nonce : JsString} (h : nonceRe nonce = true) : Js.Ascii nonce :=
  (ascii_classPattern (fun _ hc => Js.idClass_lt (by decide) hc) h).1

/-! ## Receipts and records -/

/-- Sorting the keys of an object keeps what is under them. -/
theorem get_sortKeys {fields : List (JsString × JsValue)} (h : (fields.map Prod.fst).Nodup)
    (key : String) :
    (sortKeys (.object fields)).get (Js.lit key) =
      sortKeys ((JsValue.object fields).get (Js.lit key)) := by
  have hsorted := Durable.ownValue_sortedFields h key
  rwa [Durable.ownValue, ← Durable.sortKeys_object] at hsorted

theorem AckReceipt.nodup (r : AckReceipt) : (r.fields.map Prod.fst).Nodup :=
  show (receiptKeys.map Js.lit).Nodup by decide

theorem AckReceipt.distinctKeys (r : AckReceipt) : r.toValue.DistinctKeys := by
  refine .object r.nodup fun f hf => ?_
  simp only [AckReceipt.fields, List.mem_cons, List.not_mem_nil, or_false] at hf
  rcases hf with rfl | rfl | rfl | rfl | rfl | rfl | rfl | rfl | rfl
  all_goals constructor

/-- **A receipt is shown by its canonical form.** -/
theorem receipt_of_canonicalize {r r' : AckReceipt} {text text' : JsString}
    (h : canonicalize r.toValue = .ok text) (h' : canonicalize r'.toValue = .ok text')
    (hbytes : Js.utf8 text = Js.utf8 text') : r = r' := by
  obtain ⟨hcanon, htext⟩ := canonicalize_eq_ok.mp h
  obtain ⟨hcanon', htext'⟩ := canonicalize_eq_ok.mp h'
  have hsame : text = text' := by
    rw [htext, htext'] at hbytes ⊢
    exact Js.utf8_injective hcanon.ijson.wellFormed hcanon'.ijson.wellFormed hbytes
  subst hsame
  have hsorted := sortKeys_eq_of_canonicalize h h' (plain_of_ijson hcanon.ijson r.distinctKeys)
    (plain_of_ijson hcanon'.ijson r'.distinctKeys)
  have hget : ∀ key : String, sortKeys (r.toValue.get (Js.lit key)) =
      sortKeys (r'.toValue.get (Js.lit key)) := by
    intro key
    rw [AckReceipt.toValue, AckReceipt.toValue, ← get_sortKeys r.nodup, ← get_sortKeys r'.nodup]
    exact congrArg (fun v : JsValue => v.get (Js.lit key)) hsorted
  obtain ⟨s₁, s₂, n, s₃, s₄, s₅, s₆, s₇, s₈⟩ := r
  obtain ⟨s₁', s₂', n', s₃', s₄', s₅', s₆', s₇', s₈'⟩ := r'
  have h₁ : JsValue.string s₁ = .string s₁' := hget "streamId"
  have h₂ : JsValue.string s₂ = .string s₂' := hget "sourceEpoch"
  have hn : JsValue.number n = .number n' := hget "sequence"
  have h₃ : JsValue.string s₃ = .string s₃' := hget "opDigest"
  have h₄ : JsValue.string s₄ = .string s₄' := hget "decision"
  have h₅ : JsValue.string s₅ = .string s₅' := hget "receiverId"
  have h₆ : JsValue.string s₆ = .string s₆' := hget "keyId"
  have h₇ : JsValue.string s₇ = .string s₇' := hget "issuedAt"
  have h₈ : JsValue.string s₈ = .string s₈' := hget "signature"
  cases h₁
  cases h₂
  cases hn
  cases h₃
  cases h₄
  cases h₅
  cases h₆
  cases h₇
  cases h₈
  rfl

/-- What `JSON.parse` makes of the canonical form of a record has the record's own members. -/
theorem get_of_captured {record : OutboxRecord} {body : JsString} {captured : JsValue}
    (hkeys : record.toValue.DistinctKeys) (hbody : canonicalize record.toValue = .ok body)
    (hparse : Js.parseJson body = some captured) (key : String) :
    captured.get (Js.lit key) = sortKeys (record.toValue.get (Js.lit key)) := by
  obtain ⟨hcanon, rfl⟩ := canonicalize_eq_ok.mp hbody
  have hsorted : Js.parseJson (canonText record.toValue) = some (sortKeys record.toValue) :=
    (plain_sortKeys (plain_of_ijson hcanon.ijson hkeys)).parse_stringify hcanon.ijson.hasText
  obtain rfl := Option.some.inj (hparse.symm.trans hsorted)
  rw [OutboxRecord.toValue]
  exact get_sortKeys (by rw [OutboxRecord.toValue] at hkeys; cases hkeys; assumption) key

/-- A receipt that names a record. -/
structure AckReceipt.Names (receipt : AckReceipt) (record : OutboxRecord) : Prop where
  streamId : receipt.streamId = record.streamId
  sourceEpoch : receipt.sourceEpoch = record.sourceEpoch
  sequence : receipt.sequence = .fin record.sequence
  opDigest : receipt.opDigest = record.opDigest

theorem names_of_bindsTo {record : OutboxRecord} {body : JsString} {captured : JsValue}
    (hkeys : record.toValue.DistinctKeys) (hbody : canonicalize record.toValue = .ok body)
    (hparse : Js.parseJson body = some captured) {receipt : AckReceipt}
    (h : HttpOutboxTransport.bindsTo receipt captured) : receipt.Names record := by
  have hget := fun key : String => get_of_captured hkeys hbody hparse key
  obtain ⟨hstream, hepoch, hsequence, hdigest⟩ := h
  rw [hget] at hstream hepoch hsequence hdigest
  exact
    { streamId := (Option.some.inj hstream).symm
      sourceEpoch := (Option.some.inj hepoch).symm
      sequence := (Option.some.inj hsequence).symm
      opDigest := (Option.some.inj hdigest).symm }

/-! ## Rules for the programs -/

section Rules

variable {α β : Type} {May : List (Made Op Ans) → Op → Prop} {Q : List (Made Op Ans) → β → Prop}
  {h : List (Made Op Ans)}

theorem follows_orReject {x : Except DeliverError α} {f : α → Exchange β}
    (hf : ∀ a, x = .ok a → (f a).Follows May Q h) : (orReject x >>= f).Follows May Q h := by
  cases x with
  | ok a => exact hf a rfl
  | error e => trivial

theorem follows_orRefuse {x : Except Reply α} {f : α → Exchange β}
    (hf : ∀ a, x = .ok a → (f a).Follows May Q h) : (orRefuse x >>= f).Follows May Q h := by
  cases x with
  | ok a => exact hf a rfl
  | error e => trivial

theorem follows_orRethrow {x : Except Thrown α} {f : α → Exchange β}
    (hf : ∀ a, x = .ok a → (f a).Follows May Q h) : (orRethrow x >>= f).Follows May Q h := by
  cases x with
  | ok a => exact hf a rfl
  | error e => trivial

theorem follows_orFail {ε : Type} {x : Except ε α} {f : α → Exchange β}
    (hf : ∀ a, x = .ok a → (f a).Follows May Q h) : (orFail x >>= f).Follows May Q h := by
  cases x with
  | ok a => exact hf a rfl
  | error e => trivial

theorem follows_demand {p : Prop} [Decidable p] {m : String} {f : Unit → Exchange β}
    (hf : p → (f ()).Follows May Q h) : (demand p m >>= f).Follows May Q h :=
  follows_orReject fun _ hp => hf ((require_eq_ok _ _ _).mp hp)

theorem follows_required {p : Prop} [Decidable p] {reply : Reply} {f : Unit → Exchange β}
    (hf : p → (f ()).Follows May Q h) :
    (orRefuse (require p reply) >>= f).Follows May Q h :=
  follows_orRefuse fun _ hp => hf ((require_eq_ok _ _ _).mp hp)

end Rules

/-! ## What an attempt does -/

abbrev Past := List (Made Op Ans)

variable {crypto : NodeCrypto} {recv : HttpOutboxReceiver}

/-- An attempt with this nonce to deliver a record, whose body is this text. -/
structure Attempted (record : OutboxRecord) (nonce body : JsString) (h : Past) : Prop where
  written : canonicalize record.toValue = .ok body
  drawn : ⟨.nonce, .ok nonce⟩ ∈ h
  wellFormed : nonceRe nonce = true

theorem Attempted.mono {record : OutboxRecord} {nonce body : JsString} {h h' : Past}
    (hattempt : Attempted record nonce body h) (hle : h ⊆ h') : Attempted record nonce body h' :=
  { hattempt with drawn := hle hattempt.drawn }

/-- What an attempt signs. -/
def Requests (crypto : NodeCrypto) (t : HttpOutboxTransport) (record : OutboxRecord) (h : Past)
    (message : Bytes) : Prop :=
  ∃ nonce body ts, Attempted record nonce body h ∧
    framed (requestParts t.requestKeyId t.path ts nonce (crypto.sha256hex (Js.utf8 body))) =
      .ok message

/-- The message of the reply that a receipt came in. -/
structure AckFor (crypto : NodeCrypto) (t : HttpOutboxTransport) (record : OutboxRecord)
    (receipt : AckReceipt) (nonce body keyId : JsString) (message : Bytes) (h : Past) : Prop where
  attempted : Attempted record nonce body h
  framed : ∃ text, canonicalize receipt.toValue = .ok text ∧
    framed (ackParts keyId nonce (crypto.sha256hex (Js.utf8 body)) t.path text) = .ok message
  verified : ∃ secret sig, ⟨.checkMac secret message sig, true⟩ ∈ h
  bound : ∃ captured, Js.parseJson body = some captured ∧
    HttpOutboxTransport.bindsTo receipt captured

theorem openEnvelope_eq_ok {text sentNonce sentBodyDigest : JsString}
    {env : HttpOutboxTransport.Envelope}
    (h : HttpOutboxTransport.openEnvelope text sentNonce sentBodyDigest = .ok env) :
    env.challenge = sentNonce ∧ env.requestDigest = sentBodyDigest := by
  simp only [HttpOutboxTransport.openEnvelope, bind_eq_ok, require_eq_ok, exists_unit,
    pure_eq_ok] at h
  obtain ⟨_, -, _, -, hbound, rfl⟩ := h
  exact hbound

theorem elim_eq_ok {ε α : Type} {o : Option α} {e : ε} {a : α} :
    o.elim (.error e : Except ε α) .ok = .ok a ↔ o = some a := by
  cases o <;> simp

theorem mapError_eq_ok {ε ε' α : Type} {x : Except ε α} {f : ε → ε'} {a : α} :
    x.mapError f = .ok a ↔ x = .ok a := by
  cases x <;> simp [Except.mapError]

theorem ackMessage_eq_ok {t : HttpOutboxTransport} {env : HttpOutboxTransport.Envelope}
    {raw : Option Bytes} {secret message : Bytes} {receipt : AckReceipt}
    (h : t.ackMessage env raw = .ok (secret, message, receipt)) :
    ∃ text, canonicalize receipt.toValue = .ok text ∧
      framed (ackParts env.keyId env.challenge env.requestDigest t.path text) = .ok message := by
  simp only [HttpOutboxTransport.ackMessage, bind_eq_ok, pure_eq_ok, mapError_eq_ok] at h
  obtain ⟨_, -, _, -, receipt', -, text, htext, message', hmessage, heq⟩ := h
  cases heq
  exact ⟨text, htext, hmessage⟩

section Attempt

variable (t : HttpOutboxTransport) (record : OutboxRecord)

/-- Only the message of its own request is signed by an attempt. -/
def MayRequest (h : Past) (o : Op) : Prop :=
  ∀ key message, o = .mac key message → Requests crypto t record h message

theorem verifyEnvelope_follows {nonce body : JsString} {captured : JsValue} {text : JsString}
    {h : Past} (hattempt : Attempted record nonce body h)
    (hparse : Js.parseJson body = some captured) :
    (t.verifyEnvelope text captured nonce (crypto.sha256hex (Js.utf8 body))).Follows
      (@MayRequest crypto t record)
      (fun h receipt => ∃ nonce body keyId message,
        AckFor crypto t record receipt nonce body keyId message h) h := by
  refine follows_orReject fun env henv => ?_
  obtain ⟨hchallenge, hdigest⟩ := openEnvelope_eq_ok henv
  refine ⟨fun _ _ heq => (by cases heq), fun raw => follows_orRethrow fun raw _ => ?_⟩
  refine follows_orReject fun checked hmessage => ?_
  obtain ⟨secret, message, receipt⟩ := checked
  obtain ⟨written, hwritten, hframed⟩ := ackMessage_eq_ok hmessage
  rw [hchallenge, hdigest] at hframed
  refine ⟨fun _ _ heq => (by cases heq), fun valid => follows_demand fun hvalid => ?_⟩
  obtain rfl : valid = true := hvalid
  refine follows_demand fun hbinds => ?_
  refine ⟨fun _ _ heq => (by cases heq), fun outcome => follows_orReject fun _ _ => ?_⟩
  refine ⟨nonce, body, env.keyId, message, ?_⟩
  exact
    { attempted := hattempt.mono fun e he => by simp [he]
      framed := ⟨written, hwritten, hframed⟩
      verified := ⟨secret, env.sig, by simp⟩
      bound := ⟨captured, hparse, hbinds⟩ }

theorem captureRecord_eq_ok {body : JsString} {captured : JsValue}
    (h : t.captureRecord record = .ok (body, captured)) :
    canonicalize record.toValue = .ok body ∧ Js.parseJson body = some captured := by
  simp only [HttpOutboxTransport.captureRecord, bind_eq_ok, mapError_eq_ok, elim_eq_ok,
    require_eq_ok, exists_unit, pure_eq_ok] at h
  obtain ⟨body', hbody, captured', hparse, -, heq⟩ := h
  cases heq
  exact ⟨hbody, hparse⟩

theorem deliverAndAwaitAck_follows :
    (t.deliverAndAwaitAck crypto record).Follows (@MayRequest crypto t record)
      (fun h receipt => ∃ nonce body keyId message,
        AckFor crypto t record receipt nonce body keyId message h) [] := by
  refine follows_orReject fun capture hcapture => ?_
  obtain ⟨body, captured⟩ := capture
  obtain ⟨hbody, hparse⟩ := captureRecord_eq_ok t record hcapture
  refine ⟨fun _ _ heq => (by cases heq), fun drawn => follows_orRethrow fun nonce hnonce => ?_⟩
  obtain rfl : drawn = .ok nonce := hnonce
  refine follows_demand fun hwf => ?_
  refine ⟨fun _ _ heq => (by cases heq), fun tnum => follows_orRethrow fun tnum _ => ?_⟩
  refine follows_demand fun _ => follows_orReject fun message hmessage => ?_
  have hattempt : ∀ {h : Past}, ⟨.nonce, .ok nonce⟩ ∈ h → Attempted record nonce body h :=
    fun hmem => ⟨hbody, hmem, hwf⟩
  refine ⟨fun key message' heq => ?_, fun mac => ?_⟩
  · obtain ⟨-, rfl⟩ := Op.mac.inj heq
    exact ⟨nonce, body, _, hattempt (by simp), hmessage⟩
  refine ⟨fun _ _ heq => (by cases heq), fun res => follows_orReject fun res _ => ?_⟩
  refine follows_orReject fun _ _ => ?_
  refine ⟨fun _ _ heq => (by cases heq), fun reads => follows_orReject fun bytes _ => ?_⟩
  exact verifyEnvelope_follows t record (hattempt (by simp)) hparse

end Attempt

/-! ## What the handler does -/

/-- A request that has been authenticated, and whose nonce has been burnt. -/
structure Admitted (crypto : NodeCrypto) (recv : HttpOutboxReceiver) (req : HttpRequest)
    (cred : Credentials) (body : Bytes) (h : Past) : Prop where
  checked : beforeBody recv req = .ok ()
  arrived : ∃ arrivals, ⟨.readRequest, arrivals⟩ ∈ h ∧ recv.readBodyCapped [] arrivals = .ok body
  credentials : credentials req = .ok cred
  authentic : ∃ secret currentTime message,
    ⟨.resolveRequestKey cred.keyId, .ok (some secret)⟩ ∈ h ∧ ⟨.now, .ok currentTime⟩ ∈ h ∧
      32 ≤ secret.length ∧ timestampRe cred.ts = true ∧ isFresh recv cred.ts currentTime = true ∧
      framed (requestParts cred.keyId (req.url.getD []) cred.ts cred.nonce
        (crypto.sha256hex body)) = .ok message ∧
      ⟨.checkMac secret message cred.sig, true⟩ ∈ h
  stored : ⟨.checkAndStore cred.nonce, .ok true⟩ ∈ h

/-- A request whose record has been processed, with this receipt. -/
structure Processed (crypto : NodeCrypto) (recv : HttpOutboxReceiver) (req : HttpRequest)
    (cred : Credentials) (body : Bytes) (receipt : AckReceipt) (h : Past) : Prop extends
    Admitted crypto recv req cred body h where
  received : ∃ record value, Js.parseJson (Js.fromUtf8 body) = some record ∧
    ⟨.receive record, .ok value⟩ ∈ h ∧ strictReceipt value = .ok receipt

theorem Admitted.mono {req : HttpRequest} {cred : Credentials} {body : Bytes} {h h' : Past}
    (hadmitted : Admitted crypto recv req cred body h) (hle : h ⊆ h') :
    Admitted crypto recv req cred body h' := by
  obtain ⟨arrivals, harrivals, hbody⟩ := hadmitted.arrived
  obtain ⟨secret, currentTime, message, hsecret, hnow, hrest⟩ := hadmitted.authentic
  obtain ⟨hlength, hts, hfresh, hmessage, hvalid⟩ := hrest
  exact
    { hadmitted with
      arrived := ⟨arrivals, hle harrivals, hbody⟩
      authentic := ⟨secret, currentTime, message, hle hsecret, hle hnow, hlength, hts, hfresh,
        hmessage, hle hvalid⟩
      stored := hle hadmitted.stored }

theorem Processed.mono {req : HttpRequest} {cred : Credentials} {body : Bytes}
    {receipt : AckReceipt} {h h' : Past} (hdone : Processed crypto recv req cred body receipt h)
    (hle : h ⊆ h') : Processed crypto recv req cred body receipt h' := by
  obtain ⟨record, value, hparse, hmem, hreceipt⟩ := hdone.received
  exact
    { hdone.toAdmitted.mono hle with
      received := ⟨record, value, hparse, hle hmem, hreceipt⟩ }

/-- What the handler signs. -/
def Replies (crypto : NodeCrypto) (recv : HttpOutboxReceiver) (req : HttpRequest) (h : Past)
    (message : Bytes) : Prop :=
  ∃ cred body receipt text, Processed crypto recv req cred body receipt h ∧
    canonicalize receipt.toValue = .ok text ∧
    framed (ackParts recv.responseKeyId cred.nonce (crypto.sha256hex body) (req.url.getD []) text) =
      .ok message

section Handler

variable (req : HttpRequest)

/-- Only the message of the reply to its own request is signed by the handler. -/
def MayReply (h : Past) (o : Op) : Prop :=
  ∀ key message, o = .mac key message → Replies crypto recv req h message

theorem acceptRequest_follows :
    (recv.acceptRequest crypto req).Follows (@MayReply crypto recv req)
      (fun h p => Admitted crypto recv req p.1 p.2 h) [] := by
  refine follows_orRefuse fun _ hchecked => ?_
  refine ⟨fun _ _ heq => (by cases heq), fun arrivals => follows_orRefuse fun body hbody => ?_⟩
  rw [mapError_eq_ok] at hbody
  refine follows_orRefuse fun cred hcred => ?_
  refine ⟨fun _ _ heq => (by cases heq), fun raw => follows_orFail fun raw' hraw => ?_⟩
  refine follows_orRefuse fun secret hsecret => ?_
  obtain rfl : raw' = some secret := elim_eq_ok.mp hsecret
  obtain rfl : raw = .ok (some secret) := hraw
  refine follows_required fun hlength => follows_required fun hts => ?_
  refine ⟨fun _ _ heq => (by cases heq), fun now => follows_orFail fun currentTime hnow => ?_⟩
  obtain rfl : now = .ok currentTime := hnow
  refine follows_required fun hfresh => follows_orFail fun message hmessage => ?_
  refine ⟨fun _ _ heq => (by cases heq), fun valid => follows_required fun hvalid => ?_⟩
  obtain rfl : valid = true := hvalid
  refine ⟨fun _ _ heq => (by cases heq), fun stored => follows_orFail fun fresh hstored => ?_⟩
  obtain rfl : stored = .ok fresh := hstored
  refine follows_required fun hnew => ?_
  obtain rfl : fresh = true := hnew
  exact
    { checked := hchecked
      arrived := ⟨arrivals, by simp, hbody⟩
      credentials := hcred
      authentic := ⟨secret, currentTime, message, by simp, by simp, hlength, hts, hfresh, hmessage,
        by simp⟩
      stored := by simp }

theorem handle_follows :
    (recv.handle crypto req).Follows (@MayReply crypto recv req) (fun _ _ => True) [] := by
  refine (acceptRequest_follows req).bind fun h p hle hadmitted => ?_
  obtain ⟨cred, body⟩ := p
  refine follows_orRefuse fun parsed hparse => follows_required fun _ => ?_
  refine ⟨fun _ _ heq => (by cases heq), fun value => follows_orFail fun received hvalue => ?_⟩
  obtain rfl : value = .ok received := hvalue
  refine follows_orFail fun reply hreply => ?_
  obtain ⟨message, receipt⟩ := reply
  simp only [HttpOutboxReceiver.ackMessage, bind_eq_ok, mapError_eq_ok, pure_eq_ok] at hreply
  obtain ⟨receipt', hreceipt, text, htext, message', hmessage, heq⟩ := hreply
  cases heq
  refine ⟨fun key message' heq => ?_, fun mac => ?_⟩
  · obtain ⟨-, rfl⟩ := Op.mac.inj heq
    refine ⟨cred, body, receipt, text, ?_, htext, hmessage⟩
    exact
      { hadmitted.mono (List.subset_append_left _ _) with
        received := ⟨parsed, received, elim_eq_ok.mp hparse, by simp, hreceipt⟩ }
  · exact Prog.follows_lift fun _ _ => trivial

end Handler

end Transport
