import Mathlib.Data.List.Forall2
import MarketFeed.Callback
import MarketFeed.Proofs.Mailbox

namespace MarketFeed

/-- The payloads that belong to a kind. -/
inductive EventKind.Carries : EventKind → Payload → Prop where
  | frontDisconnected (code : Int32) : Carries .frontDisconnected (.reason code)
  | heartbeatWarning (millis : Int32) : Carries .heartbeatWarning (.timeLapse millis)
  | login (reply : LoginReply) : Carries .login (.login reply)
  | logout (user : LogoutUser) : Carries .logout (.logout user)
  | subscribed (feed : Feed) (i : Instrument) : Carries (.subscribed feed) (.instrument i)
  | unsubscribed (feed : Feed) (i : Instrument) : Carries (.unsubscribed feed) (.instrument i)
  | tick (t : Tick) : Carries .tick (.tick t)
  | quoteRequest (q : QuoteRequest) : Carries .quoteRequest (.quoteRequest q)

/-- Events that answer a request. The others tell of the connection or belong to a stream. -/
def EventKind.isAcknowledgement : EventKind → Bool
  | login | logout | error | subscribed _ | unsubscribed _ => true
  | frontConnected | frontDisconnected | heartbeatWarning | tick | quoteRequest => false

namespace Callback

def kind : Callback → EventKind
  | frontConnected => .frontConnected
  | frontDisconnected _ => .frontDisconnected
  | heartbeatWarning _ => .heartbeatWarning
  | error _ => .error
  | login _ _ => .login
  | logout _ _ => .logout
  | subscribed feed _ _ => .subscribed feed
  | unsubscribed feed _ _ => .unsubscribed feed
  | tick _ => .tick
  | quoteRequest _ => .quoteRequest

def ack? : Callback → Option Ack
  | error ack | login _ ack | logout _ ack | subscribed _ _ ack | unsubscribed _ _ ack => some ack
  | frontConnected | frontDisconnected _ | heartbeatWarning _ | tick _ | quoteRequest _ => none

end Callback

namespace Notification

/-- A notification tells of a callback with all its arguments. -/
structure Tells (n : Notification) (c : Callback) : Prop where
  callback : n.callback? = some c
  kind : n.kind = c.kind
  payload {p : Payload} (h : n.data = some p) : n.kind.Carries p
  unasked (h : n.kind.isAcknowledgement = false) :
    n.error = none ∧ n.requestId = none ∧ n.isFinal = true
  asked (h : n.kind.isAcknowledgement = true) :
    ∃ ack, c.ack? = some ack ∧ n.error = ack.error ∧ n.requestId = some ack.requestId ∧
      n.isFinal = ack.isLast
  isError_iff : n.isError = true ↔
    n.kind.isAcknowledgement = true ∧ ∃ e, n.error = some e ∧ e.code ≠ 0

variable {kind : EventKind} {data : Option Payload} {c : Callback} {ack : Ack}

theorem isError_iff {n : Notification} :
    n.isError = true ↔ ∃ e, n.error = some e ∧ e.code ≠ 0 := by
  rw [isError, Option.any_eq_true]
  simp only [ErrorInfo.isError, bne_iff_ne]

theorem tells_signal (hc : (signal kind data).callback? = some c) (hk : c.kind = kind)
    (ha : kind.isAcknowledgement = false) (hd : ∀ p, data = some p → kind.Carries p) :
    (signal kind data).Tells c where
  callback := hc
  kind := hk.symm
  payload {p} h := hd p h
  unasked _ := ⟨rfl, rfl, rfl⟩
  asked h := by
    cases ha.symm.trans h
  isError_iff := by
    rw [isError_iff]
    constructor
    · rintro ⟨e, he, -⟩
      cases he
    · rintro ⟨h, -⟩
      cases ha.symm.trans h

theorem tells_acknowledgement (hc : (acknowledgement kind data ack).callback? = some c)
    (hk : c.kind = kind) (ha : kind.isAcknowledgement = true) (hack : c.ack? = some ack)
    (hd : ∀ p, data = some p → kind.Carries p) : (acknowledgement kind data ack).Tells c where
  callback := hc
  kind := hk.symm
  payload {p} h := hd p h
  unasked h := by
    cases ha.symm.trans h
  asked _ := ⟨ack, hack, rfl, rfl, rfl⟩
  isError_iff := isError_iff.trans (and_iff_right ha).symm

theorem carries_of_map {α : Type} {f : α → Payload} (hf : ∀ a, kind.Carries (f a)) (o : Option α) :
    ∀ p, o.map f = some p → kind.Carries p := by
  intro p hp
  obtain ⟨a, -, rfl⟩ := Option.map_eq_some_iff.1 hp
  exact hf a

theorem tells_ofCallback (c : Callback) : (ofCallback c).Tells c := by
  have hc := callback?_ofCallback c
  cases c with
  | frontConnected => exact tells_signal hc rfl rfl fun _ hp => nomatch hp
  | frontDisconnected code =>
    exact tells_signal hc rfl rfl (carries_of_map .frontDisconnected (some code))
  | heartbeatWarning millis =>
    exact tells_signal hc rfl rfl (carries_of_map .heartbeatWarning (some millis))
  | error ack => exact tells_acknowledgement hc rfl rfl rfl fun _ hp => nomatch hp
  | login data ack => exact tells_acknowledgement hc rfl rfl rfl (carries_of_map .login data)
  | logout data ack => exact tells_acknowledgement hc rfl rfl rfl (carries_of_map .logout data)
  | subscribed feed data ack =>
    exact tells_acknowledgement hc rfl rfl rfl (carries_of_map (.subscribed feed) data)
  | unsubscribed feed data ack =>
    exact tells_acknowledgement hc rfl rfl rfl (carries_of_map (.unsubscribed feed) data)
  | tick data => exact tells_signal hc rfl rfl (carries_of_map .tick (some data))
  | quoteRequest data => exact tells_signal hc rfl rfl (carries_of_map .quoteRequest (some data))

end Notification

namespace Mailbox

variable {m : Mailbox} {visits : List (List Visit)}

/-- Receivers that leave the mailbox alone get all that is in it, and it is empty afterwards. -/
theorem drain_of_quiet (h : ∀ vs ∈ visits, vs = []) :
    m.drain visits = ⟨m.queue.items, [], { m with queue := .empty }⟩ := by
  induction visits generalizing m with
  | nil => rfl
  | cons vs visits ih =>
    obtain ⟨rfl, hvs⟩ := List.forall_mem_cons.1 h
    rw [drain]
    split
    · rename_i ht
      have hi := take?_eq_none_iff.1 ht
      have hq : m.queue = .empty := congrArg Queue.mk hi
      rw [hi, ← hq]
    · rename_i n m' ht
      obtain ⟨hi, hm⟩ := take?_eq_some_iff.1 ht
      simp only [visit, ih hvs, hi, List.nil_append]
      rw [hm]

/-- In an open mailbox no callback is lost: receivers that leave it alone are given what was in it, and
then one notification for each callback, which tells of the callback with all its arguments. -/
theorem callbacks_survive (h : m.closed = false) (hv : ∀ vs ∈ visits, vs = [])
    (callbacks : List Callback) :
    ∃ told,
      ((m.publishAll (callbacks.map .ofCallback)).drain visits).items = m.queue.items ++ told ∧
      ((m.publishAll (callbacks.map .ofCallback)).drain visits).mailbox.queue.items = [] ∧
      List.Forall₂ Notification.Tells told callbacks := by
  rw [drain_of_quiet hv, items_publishAll, h]
  refine ⟨callbacks.map .ofCallback, rfl, rfl, ?_⟩
  induction callbacks with
  | nil => exact .nil
  | cons c callbacks ih => exact .cons (Notification.tells_ofCallback c) ih

theorem callbacks_survive_of_refused_login :
    ∃ told,
      ((({} : Mailbox).publishAll ([.frontConnected, .login none ⟨some ⟨3, "password"⟩, 1, true⟩].map
          .ofCallback)).drain [[]]).items = told ∧
      List.Forall₂ Notification.Tells told
        [.frontConnected, .login none ⟨some ⟨3, "password"⟩, 1, true⟩] := by
  obtain ⟨told, hi, -, ht⟩ := callbacks_survive (m := {}) rfl
    (fun _ hvs => List.mem_singleton.1 hvs)
    [.frontConnected, .login none ⟨some ⟨3, "password"⟩, 1, true⟩]
  exact ⟨told, hi, ht⟩

end Mailbox

end MarketFeed
