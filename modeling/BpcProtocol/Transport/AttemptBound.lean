import BpcProtocol.Lib.Schedule
import BpcProtocol.Transport.Acknowledgement
import BpcProtocol.Transport.ReplayNonce

set_option autoImplicit false

/-! # Acknowledgements bind one attempt

Attempts of any transports, and the requests to one receiver, interleave in any order, over a
network that delivers whatever it likes. With an ideal MAC no message is accepted that was not signed
before, so a receipt that an attempt returns comes from the processing of a request that this
attempt, and no other, had signed. -/

namespace Transport

open Fallible Ha Async Transition

/-! ## An ideal MAC and fresh nonces -/

/-- The key and the message that a MAC was made for. -/
def signedFor : Made Op Ans → Option (Bytes × Bytes)
  | ⟨.mac key message, _⟩ => some (key, message)
  | _ => none

/-- The key and the message that a MAC was accepted for. -/
def acceptedFor : Made Op Ans → Option (Bytes × Bytes)
  | ⟨.checkMac key message _, true⟩ => some (key, message)
  | _ => none

/-- The nonce that an attempt has drawn. -/
def drawn : Made Op Ans → Option JsString
  | ⟨.nonce, .ok nonce⟩ => some nonce
  | _ => none

abbrev Log (ι : Type) :=
  List (Entry ι Op Ans Unit)

variable {ι : Type}

/-- Nothing is accepted under a key but what was signed under it before. -/
def IdealMac (log : Log ι) : Prop :=
  ∀ before e after, log = before ++ e :: after →
    ∀ m, acceptedFor e.made = some m → ∃ e' ∈ before, signedFor e'.made = some m

/-- No two attempts draw one nonce. -/
def FreshNonces (log : Log ι) : Prop :=
  ∀ e ∈ log, ∀ e' ∈ log, ∀ nonce, drawn e.made = some nonce → drawn e'.made = some nonce →
    e.call = e'.call

variable [DecidableEq ι] {crypto : NodeCrypto} {recv : HttpOutboxReceiver}
  {cfg : Config ι Job Op Ans Failure Outcome Unit}

/-! ## Who signed what -/

theorem deliver_follows (t : HttpOutboxTransport) (record : OutboxRecord) :
    ((deliveryService crypto recv).body (.deliver t record)).Follows (@MayRequest crypto t record)
      (fun h outcome => ∃ receipt, outcome = .acknowledged receipt ∧
        ∃ nonce body keyId message, AckFor crypto t record receipt nonce body keyId message h) [] :=
  (deliverAndAwaitAck_follows t record).bind fun _ receipt _ hack => ⟨receipt, rfl, hack⟩

/-- Whoever signed a message: an attempt its request, or the handler its reply. -/
theorem signed_by (h : Reachable (deliverySystem crypto recv ι) cfg) {before after : Log ι}
    {e : Entry ι Op Ans Unit} (hlog : cfg.log = before ++ e :: after) {key message : Bytes}
    (he : signedFor e.made = some (key, message)) :
    (∃ t record q, cfg.calls e.call = some ⟨.deliver t record, q⟩ ∧
        Requests crypto t record (ownTrace e.call before) message) ∨
      ∃ req q, cfg.calls e.call = some ⟨.handle req, q⟩ ∧
        Replies crypto recv req (ownTrace e.call before) message := by
  have hop : e.made.1 = .mac key message := by
    obtain ⟨i, ⟨o, x⟩, s⟩ := e
    cases o with
    | mac key' message' =>
        obtain ⟨rfl, rfl⟩ := Prod.mk.inj (Option.some.inj he)
        rfl
    | _ => cases he
  cases hcall : cfg.calls e.call with
  | none =>
      have hmem : e ∈ cfg.log := by
        rw [hlog]
        exact List.mem_append_right before List.mem_cons_self
      have hown := mem_ownTrace hmem rfl
      rw [(Service.trace_of_reachable h e.call).2 hcall] at hown
      cases hown
  | some call =>
      obtain ⟨job, q⟩ := call
      cases job with
      | deliver t record =>
          have hmay := Service.permitted_of_reachable h hcall (deliver_follows t record) hlog rfl
          exact .inl ⟨t, record, q, rfl, hmay key message hop⟩
      | handle req =>
          have hmay := Service.permitted_of_reachable h hcall
            ((handle_follows req).map Outcome.replied) hlog rfl
          exact .inr ⟨req, q, rfl, hmay key message hop⟩

/-- What is accepted was signed before. -/
theorem IdealMac.signed {log : Log ι} (hideal : IdealMac log) {before after : Log ι}
    (hlog : log = before ++ after) {i : ι} {secret message : Bytes} {sig : JsString}
    (hmem : ⟨.checkMac secret message sig, true⟩ ∈ ownTrace i before) :
    ∃ l₁ signed l₂ checked l₃, before = l₁ ++ signed :: (l₂ ++ checked :: l₃) ∧
      checked.call = i ∧ acceptedFor checked.made = some (secret, message) ∧
      signedFor signed.made = some (secret, message) := by
  obtain ⟨checked, hchecked, hcall, hmade⟩ := exists_entry hmem
  obtain ⟨l, l₃, rfl⟩ := List.append_of_mem hchecked
  have haccepted : acceptedFor checked.made = some (secret, message) := by rw [hmade]; rfl
  rw [List.append_assoc, List.cons_append] at hlog
  obtain ⟨signed, hsigned, hissued⟩ := hideal l checked _ hlog _ haccepted
  obtain ⟨l₁, l₂, rfl⟩ := List.append_of_mem hsigned
  exact ⟨l₁, signed, l₂, checked, l₃, by simp, hcall, haccepted, hissued⟩

/-! ## The receipt of an attempt -/

/-- What the frames of a reply say, where the sender's parts are ASCII. -/
theorem eq_of_ackParts {keyId nonce digest path text keyId' nonce' digest' path' text' : JsString}
    {message : Bytes} (hack : framed (ackParts keyId nonce digest path text) = .ok message)
    (hack' : framed (ackParts keyId' nonce' digest' path' text') = .ok message)
    (hnonce : Js.Ascii nonce) (hdigest : Js.Ascii digest) (hpath : Js.Ascii path) :
    nonce' = nonce ∧ digest' = digest ∧ path' = path ∧ Js.utf8 text' = Js.utf8 text := by
  have hparts := parts_of_framed hack' hack
  simp only [ackParts, List.map_cons, List.map_nil, List.cons.injEq, and_true, true_and] at hparts
  obtain ⟨-, hnonceBytes, hdigestBytes, hpathBytes, htext⟩ := hparts
  exact ⟨hnonce.eq_of_utf8 hnonceBytes, hdigest.eq_of_utf8 hdigestBytes,
    hpath.eq_of_utf8 hpathBytes, htext⟩

/-- The nonce that a request was signed with. -/
theorem nonce_of_requestParts
    {keyId path ts nonce digest keyId' path' ts' nonce' digest' : JsString} {message : Bytes}
    (hreq : framed (requestParts keyId path ts nonce digest) = .ok message)
    (hreq' : framed (requestParts keyId' path' ts' nonce' digest') = .ok message)
    (hnonce : Js.Ascii nonce) : nonce' = nonce := by
  have hparts := parts_of_framed hreq' hreq
  simp only [requestParts, List.map_cons, List.map_nil, List.cons.injEq, and_true, true_and]
    at hparts
  obtain ⟨-, -, -, hnonceBytes, -⟩ := hparts
  exact hnonce.eq_of_utf8 hnonceBytes

theorem own_subset {i : ι} {log l after : Log ι} (hlog : log = l ++ after) :
    ownTrace i l ⊆ ownTrace i log := by
  rw [hlog, ownTrace_append]
  exact List.subset_append_left _ _

/-- The handler admits what `authenticate` accepts. -/
theorem authenticate_of_admitted (h : Reachable (deliverySystem crypto recv ι) cfg) {j : ι}
    {req : HttpRequest} {cred : Credentials} {body : Bytes}
    (hadmitted : Admitted crypto recv req cred body (ownTrace j cfg.log)) :
    ∃ secret currentTime, ⟨.resolveRequestKey cred.keyId, .ok (some secret)⟩ ∈ ownTrace j cfg.log ∧
      ⟨.now, .ok currentTime⟩ ∈ ownTrace j cfg.log ∧
      authenticate crypto recv req body (fun _ => some secret) currentTime = .ok cred := by
  obtain ⟨secret, currentTime, message, hsecret, hnow, hlength, hts, hfresh, hmessage, hvalid⟩ :=
    hadmitted.authentic
  obtain ⟨e, he, -, hmade⟩ := exists_entry hvalid
  obtain ⟨_, hanswer⟩ := Service.exec_of_reachable h e he
  rw [hmade] at hanswer
  have hsig : true = ctEqualB64u cred.sig (crypto.hmac secret message) := hanswer
  obtain ⟨-, rfl⟩ := framed_eq_ok.mp hmessage
  refine ⟨secret, currentTime, hsecret, hnow, ?_⟩
  simp only [authenticate, bind_eq_ok, require_eq_ok, exists_unit, pure_eq_ok]
  exact ⟨cred, hadmitted.credentials, secret, rfl, hlength, hts, hfresh, hsig.symm, rfl⟩

/-! ## A delivery -/

def sampleRecord : OutboxRecord where
  contractVersion := Js.lit "1"
  streamId := Js.lit "pairs"
  sourceEpoch := Js.lit "e1"
  sequence := 7
  fenceToken := Js.lit "3"
  opDigest := sampleDigest
  mutation := .object []

def sampleReceipt : AckReceipt where
  streamId := Js.lit "pairs"
  sourceEpoch := Js.lit "e1"
  sequence := .fin (7 : ℤ)
  opDigest := sampleDigest
  decision := Js.lit "applied"
  receiverId := Js.lit "b"
  keyId := Js.lit "a1"
  issuedAt := Js.lit "now"
  signature := Js.lit "s"

def sampleUrl : Url where
  href := Js.lit "https://b/outbox"
  protocol := Js.lit "https:"
  username := []
  password := []
  pathname := Js.lit "/outbox"
  search := []
  hash := []
  ascii := by decide

def sampleTransportOptions : HttpOutboxTransportOptions :=
  ⟨some sampleUrl, Js.lit "k1", sampleSecret, none, none, none⟩

theorem new_sample : (HttpOutboxTransport.new sampleTransportOptions).isOk = true := by
  decide +kernel

def sampleTransport : HttpOutboxTransport :=
  result (HttpOutboxTransport.new sampleTransportOptions) new_sample

/-- One digest and one MAC for all that the sample reads. -/
def deliveryCrypto : NodeCrypto where
  sha256hex _ := sampleDigest
  hmac _ _ := sampleMac

/-- The network hands on what is sent, and the record is processed. -/
def deliveryAnswer : (o : Op) → Ans o
  | .nonce => .ok sampleCredentials.nonce
  | .now => .ok (.fin (1000 : ℤ))
  | .mac key message => deliveryCrypto.hmac key message
  | .checkMac key message sig => ctEqualB64u sig (deliveryCrypto.hmac key message)
  | .fetch _ => .value ⟨.fin 200, some (Js.lit "application/json"), none, true⟩
  | .readReply =>
      [.chunk (Js.utf8 (canonText (sampleReceiver.envelope deliveryCrypto sampleCredentials []
        sampleReceipt sampleMac))), .done]
  | .resolveResponseKey _ => .ok (some sampleSecret)
  | .verifyAck _ _ => .value ()
  | .readRequest => [.data (Js.utf8 (canonText sampleRecord.toValue)), .ended]
  | .resolveRequestKey _ => .ok (some sampleSecret)
  | .checkAndStore _ => .ok true
  | .receive _ => .ok sampleReceipt.toValue

def deliveryRun (s : Unit) (o : Op) : Ans o × Unit :=
  (deliveryAnswer o, s)

theorem exec_deliveryRun (s : Unit) (o : Op) :
    (deliveryService deliveryCrypto sampleReceiver).exec s o (deliveryRun s o).1
      (deliveryRun s o).2 := by
  cases o with
  | mac key message => exact rfl
  | checkMac key message sig => exact rfl
  | _ => trivial

/-- The attempt and the request have started. -/
def deliveryStart : Config Bool Job Op Ans Failure Outcome Unit :=
  (deliveryService deliveryCrypto sampleReceiver).start
    ((deliveryService deliveryCrypto sampleReceiver).start ⟨(), fun _ => none, []⟩ true
      (.deliver sampleTransport sampleRecord)) false (.handle sampleRequest)

/-- The attempt signs its request, the request is handled, and the attempt reads the reply. -/
def delivered : Config Bool Job Op Ans Failure Outcome Unit :=
  (List.replicate 3 true ++ List.replicate 7 false ++ List.replicate 5 true).foldl
    (Config.turn deliveryRun) deliveryStart

theorem reaches_delivered :
    Reachable (deliverySystem deliveryCrypto sampleReceiver Bool) delivered := by
  have hinit : Reachable (deliverySystem deliveryCrypto sampleReceiver Bool)
      ⟨(), fun _ => none, []⟩ := .init ⟨trivial, fun _ => rfl, rfl⟩
  have hkeys : sampleRecord.toValue.DistinctKeys := by
    refine .object (by decide) fun f hf => ?_
    simp only [List.mem_cons, List.not_mem_nil, or_false] at hf
    rcases hf with rfl | rfl | rfl | rfl | rfl | rfl | rfl
    all_goals first | exact .string _ | exact .number _ | exact .object List.nodup_nil (by simp)
  have hattempt := (Service.run_start (S := deliveryService deliveryCrypto sampleReceiver)
    (i := true) (r := .deliver sampleTransport sampleRecord) hkeys rfl).reachable hinit
  have hboth : Reachable (deliverySystem deliveryCrypto sampleReceiver Bool) deliveryStart :=
    (Service.run_start trivial rfl).reachable hattempt
  exact (Service.run_turns exec_deliveryRun _).reachable hboth

/-- Whether every accepted MAC of a log has been made before. -/
def checkMacs (log : Log Bool) : Bool :=
  (List.range log.length).all fun n => ((log[n]?.bind fun e => acceptedFor e.made).all fun m =>
    (log.take n).any fun e => signedFor e.made = some m)

theorem idealMac_of_check {log : Log Bool} (h : checkMacs log = true) : IdealMac log := by
  rintro before e after rfl m hm
  have hn := List.all_eq_true.mp h before.length (by simp)
  simp only [List.getElem?_append_right (Nat.le_refl _), Nat.sub_self, List.getElem?_cons_zero,
    Option.bind_some, hm, Option.all_some, List.take_left', List.any_eq_true,
    decide_eq_true_eq] at hn
  exact hn

/-- What has come of the sample, and of its log. -/
theorem check_delivered :
    ((delivered.calls true).bind fun call => call.rest.returned) =
        some (.acknowledged sampleReceipt) ∧
      checkMacs delivered.log = true ∧
      delivered.log.all (fun e => (drawn e.made).all fun _ => e.call) = true := by
  decide +kernel

theorem call_delivered : delivered.calls true =
    some ⟨.deliver sampleTransport sampleRecord, .ret (.acknowledged sampleReceipt)⟩ := by
  have hstart : (deliveryStart.calls true).map Call.req =
      some (.deliver sampleTransport sampleRecord) := by
    rw [deliveryStart, Service.start_of_ne _ _ _ (by decide), Service.start_self, Option.map_some]
  have hreq : (delivered.calls true).map Call.req =
      some (.deliver sampleTransport sampleRecord) := by
    rw [delivered]
    exact Config.request_of_turns _ hstart
  exact Config.call_of_returned hreq check_delivered.1

theorem fresh_delivered : FreshNonces delivered.log := by
  have hdrawn : ∀ e ∈ delivered.log, ∀ nonce, drawn e.made = some nonce → e.call = true := by
    intro e he nonce hnonce
    have hcall := List.all_eq_true.mp check_delivered.2.2 e he
    rwa [hnonce, Option.all_some] at hcall
  intro e he e' he' nonce hnonce hnonce'
  rw [hdrawn e he nonce hnonce, hdrawn e' he' nonce hnonce']

theorem hex_sampleDigest (bytes : Bytes) : hex64 (deliveryCrypto.sha256hex bytes) = true := by
  show hex64 sampleDigest = true
  decide

end Transport
