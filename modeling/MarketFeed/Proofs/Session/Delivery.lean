import MarketFeed.Proofs.Mailbox
import MarketFeed.Proofs.Session.Change

namespace MarketFeed

/-- The notification that is with its listener. -/
def Pump.openDelivery : Pump → List (Notification × Option Registration)
  | dispatching _ n r _ _ => [(n, some r)]
  | _ => []

def Pump.isDraining : Pump → Bool
  | draining _ | dispatching .. => true
  | _ => false

namespace Session

variable {σ : Type}

def drained (s : Session σ) : List (Notification × Option Registration) :=
  s.deliveries.map (fun d => (d.notification, d.listener)) ++ s.pump.openDelivery

/-- The books of the mailbox, and what makes the pump look into it. -/
structure Posted (s : Session σ) : Prop where
  ledger : s.mailbox.Ledger (s.drained.map (·.1))
  alert : s.pump.isDraining = false → s.mailbox.Alert

theorem posted_fresh (vendor : σ) (settings : Settings) : (fresh vendor settings).Posted where
  ledger := Mailbox.ledger_empty
  alert _ h := absurd rfl h

/-- What a change of a session means to its mailbox. One notification is taken out of it at most:
the oldest, for the listener that its kind has at that moment. -/
inductive MailChange (s t : Session σ) : Prop
  | keep (hm : t.mailbox = s.mailbox) (hd : t.drained = s.drained)
      (hp : t.pump.isDraining = s.pump.isDraining)
  | publish (ns : List Notification) (hm : t.mailbox = s.mailbox.publishAll ns)
      (hd : t.drained = s.drained) (hp : t.pump.isDraining = s.pump.isDraining)
  | post (n : Notification) (hm : t.mailbox = s.mailbox.post n) (hd : t.drained = s.drained)
      (hp : t.pump.isDraining = s.pump.isDraining)
  | ring (hm : s.mailbox.ring? = some t.mailbox) (hd : t.drained = s.drained)
      (hp : t.pump.isDraining = s.pump.isDraining)
  | wake (hm : s.mailbox.wake? = some t.mailbox) (hd : t.drained = s.drained)
      (hp : t.pump.isDraining = true)
  | take (n : Notification) (hm : s.mailbox.take? = some (n, t.mailbox))
      (hd : t.drained = s.drained ++ [(n, s.listeners.find? n.kind)])
      (hp : t.pump.isDraining = true)
      (hr : ∀ r, s.listeners.find? n.kind = some r →
        ∃ count, t.pump = .dispatching count n r (r.listener.acts (s.invocations r.number)) [])
  | emptied (hm : t.mailbox = s.mailbox) (hd : t.drained = s.drained)
      (hq : s.mailbox.queue.items = [])
  | close (hm : t.mailbox = s.mailbox.close.2) (hd : t.drained = s.drained)
      (hp : s.pump.isDraining = false ∨ s.state = .closed)

theorem HostChange.drained {s u : Session σ} (hu : HostChange s u) : u.drained = s.drained := by
  obtain ⟨hp, -, hd, -⟩ := hu.frame
  rw [Session.drained, Session.drained, hp, hd]

theorem HostChange.mailChange {s u t : Session σ} (hu : HostChange s u)
    (hm : t.mailbox = u.mailbox) (hd : t.drained = u.drained)
    (hp : t.pump.isDraining = u.pump.isDraining) : MailChange s t := by
  have hd' : t.drained = s.drained := hd.trans hu.drained
  rw [hu.frame.1] at hp
  cases hu with
  | publish callbacks => exact .publish _ hm hd' hp
  | _ => exact .keep hm hd' hp

theorem openDelivery_of_betweenTurns {s : Session σ} (h : s.betweenTurns = true) :
    s.pump.openDelivery = [] ∧ s.pump.isDraining = false := by
  cases hp : s.pump with
  | completing sub outcome acts answers =>
    simp only [betweenTurns, hp, Bool.false_eq_true] at h
  | draining count => simp only [betweenTurns, hp, Bool.false_eq_true] at h
  | dispatching count n r acts answers =>
    simp only [betweenTurns, hp, Bool.false_eq_true] at h
  | _ => exact ⟨rfl, rfl⟩

theorem drained_of_openDelivery {s t : Session σ} (hs : s.pump.openDelivery = [])
    (ht : t.pump.openDelivery = []) (hd : t.deliveries = s.deliveries) :
    t.drained = s.drained := by
  rw [drained, drained, hs, ht, hd]

theorem TurnEnd.openDelivery {s t : Session σ} (h : TurnEnd s t) : t.pump.openDelivery = [] := by
  cases h <;> rfl

theorem Change.mailChange {V : Vendor σ} {s t : Session σ} (hc : Change V s t) :
    MailChange s t := by
  cases hc with
  | host t hu => exact hu.mailChange rfl rfl rfl
  | book sub log held free hc ha => exact .keep rfl rfl rfl
  | enqueue sub hb => exact .keep rfl rfl rfl
  | post n => exact .post n rfl rfl rfl
  | ring m hm => exact .ring hm rfl rfl
  | work raised lane ha => exact .publish _ rfl rfl rfl
  | letGo held free => exact .keep rfl rfl rfl
  | destroyPump hp hd =>
    obtain ⟨ho, hi⟩ := openDelivery_of_betweenTurns hp
    exact .keep rfl (drained_of_openDelivery ho rfl rfl) hi.symm
  | destroyNothing hd => exact .keep rfl rfl rfl
  | start log hp =>
    exact .keep rfl (drained_of_openDelivery (by rw [hp]; rfl) rfl rfl) (by rw [hp]; rfl)
  | beginCompletion c lane log hp hc =>
    have hd := drained_of_openDelivery (s := s) (t := { s with
      pump := .completing c.submission c.result.outcome c.submission.continuation.acts [] })
      (by rw [hp]; rfl) rfl rfl
    by_cases ho : c.submission.operation = .exit
    · exact .close (if_pos ho) hd (.inl (by rw [hp]; rfl))
    · exact .keep (if_neg ho) hd (by rw [hp]; rfl)
  | continueCompletion sub outcome act acts answers answers' u hp hu =>
    have hpu : u.pump = _ := hu.frame.1.trans hp
    exact hu.mailChange rfl (drained_of_openDelivery (by rw [hpu]; rfl) rfl rfl) (by rw [hpu]; rfl)
  | endCompletion sub outcome acts answers answers' log t hp he =>
    have hd : t.drained = s.drained :=
      drained_of_openDelivery (by rw [hp]; rfl) he.openDelivery he.frame.2.1
    cases he with
    | wait hn => exact .keep rfl hd (by rw [hp]; rfl)
    | detach log hx => exact .close rfl hd (.inr hx.1)
  | quit log hp hc he =>
    exact .close rfl (drained_of_openDelivery (by rw [hp]; rfl) rfl rfl) (.inl (by rw [hp]; rfl))
  | wake m hp hc hm => exact .wake hm (drained_of_openDelivery (by rw [hp]; rfl) rfl rfl) rfl
  | discard count n m log hp hm hl =>
    refine .take n hm ?_ rfl fun r hr => by rw [hl] at hr; cases hr
    simp only [drained, hp, hl, Pump.openDelivery, List.map_append, List.map_cons, List.map_nil,
      List.append_nil]
  | dispatch count n m r log hp hm hl =>
    refine .take n hm ?_ rfl fun r' hr => ⟨count, by rw [hl] at hr; cases hr; rfl⟩
    simp only [drained, hp, hl, Pump.openDelivery, List.append_nil]
  | continueDispatch count n r act acts answers answers' u hp hu =>
    have hpu : u.pump = _ := hu.frame.1.trans hp
    refine hu.mailChange rfl ?_ (by rw [hpu]; rfl)
    simp only [drained, hpu, Pump.openDelivery]
  | endDispatch count n r acts answers answers' log hp =>
    refine .keep rfl ?_ (by rw [hp]; rfl)
    simp only [drained, hp, Pump.openDelivery, List.map_append, List.map_cons, List.map_nil,
      List.append_nil]
  | endDrain count log t hp hm he =>
    have hd : t.drained = s.drained :=
      drained_of_openDelivery (by rw [hp]; rfl) he.openDelivery he.frame.2.1
    cases he with
    | wait hn => exact .emptied rfl hd (Mailbox.take?_eq_none_iff.1 hm)
    | detach log hx => exact .close rfl hd (.inr hx.1)

theorem Posted.change {s t : Session σ} (h : s.Posted) (hc : MailChange s t) : t.Posted := by
  obtain ⟨hl, ha⟩ := h
  cases hc with
  | keep hm hd hp =>
    rw [← hm, ← hd] at hl
    rw [← hm, ← hp] at ha
    exact ⟨hl, ha⟩
  | publish ns hm hd hp =>
    rw [← hd] at hl
    rw [← hp] at ha
    apply Posted.mk (hm ▸ hl.publishAll ns)
    intro hx
    rw [hm]
    exact (ha hx).publishAll ns
  | post n hm hd hp =>
    rw [← hd] at hl
    rw [← hp] at ha
    apply Posted.mk (hm ▸ hl.post n)
    intro hx
    rw [hm]
    exact (ha hx).post n
  | ring hm hd hp =>
    rw [← hd] at hl
    exact ⟨hl.ring? hm, fun _ => Mailbox.alert_ring? hm⟩
  | wake hm hd hp =>
    rw [← hd] at hl
    apply Posted.mk (hl.wake? hm)
    intro hx
    rw [hp] at hx
    cases hx
  | take n hm hd hp hr =>
    apply Posted.mk
    · rw [hd, List.map_append]
      exact hl.take? hm
    · intro hx
      rw [hp] at hx
      cases hx
  | emptied hm hd hq =>
    rw [← hd] at hl
    rw [← hm] at hl hq
    exact ⟨hl, fun _ hx => absurd hq hx⟩
  | close hm hd hp =>
    rw [← hd] at hl
    apply Posted.mk (hm ▸ hl.close)
    intro _
    rw [hm]
    exact s.mailbox.alert_close

structure Given (s t : Session σ) (n : Notification) : Prop where
  drained : t.drained = s.drained ++ [(n, s.listeners.find? n.kind)]
  listener : ∀ r, s.listeners.find? n.kind = some r →
    ∃ count, t.pump = .dispatching count n r (r.listener.acts (s.invocations r.number)) []

theorem MailChange.drained {s t : Session σ} (hc : MailChange s t) :
    t.drained = s.drained ∨
      ∃ n rest, s.mailbox.queue.items = n :: rest ∧ Given s t n := by
  cases hc with
  | take n hm hd hp hr =>
    exact .inr ⟨n, _, (Mailbox.take?_eq_some_iff.1 hm).1, hd, hr⟩
  | _ => exact .inl (by assumption)

theorem MailChange.drained_prefix {s t : Session σ} (hc : MailChange s t) :
    s.drained <+: t.drained := by
  rcases hc.drained with hd | ⟨n, -, -, hg⟩
  · exact hd ▸ List.prefix_rfl
  · rw [hg.drained]
    exact List.prefix_append _ _

theorem MailChange.closed {s t : Session σ} (hc : MailChange s t)
    (h : s.mailbox.closed = true) : t.mailbox.closed = true := by
  cases hc with
  | keep hm hd hp => rw [hm, h]
  | publish ns hm hd hp => rw [hm, Mailbox.closed_publishAll, h]
  | post n hm hd hp => rw [hm, Mailbox.closed_post, h]
  | ring hm hd hp => rw [Mailbox.closed_ring? hm, h]
  | wake hm hd hp => rw [Mailbox.closed_wake? hm, h]
  | take n hm hd hp hr => rw [Mailbox.closed_take? hm, h]
  | emptied hm hd hq => rw [hm, h]
  | close hm hd hp =>
    rw [hm]
    rfl

theorem MailChange.accepted {s t : Session σ} (hc : MailChange s t) :
    s.mailbox.accepted <+: t.mailbox.accepted := by
  cases hc with
  | publish ns hm hd hp => exact hm ▸ s.mailbox.accepted_publishAll ns
  | post n hm hd hp => exact hm ▸ s.mailbox.accepted_post n
  | ring hm hd hp => exact Mailbox.accepted_ring? hm ▸ List.prefix_rfl
  | wake hm hd hp =>
    have he : t.mailbox.accepted = s.mailbox.accepted := by
      rw [(Mailbox.wake?_eq_some_iff.1 hm).2]
    exact he ▸ List.prefix_rfl
  | take n hm hd hp hr =>
    have he : t.mailbox.accepted = s.mailbox.accepted := by
      rw [(Mailbox.take?_eq_some_iff.1 hm).2]
    exact he ▸ List.prefix_rfl
  | keep hm hd hp => exact hm ▸ List.prefix_rfl
  | emptied hm hd hq => exact hm ▸ List.prefix_rfl
  | close hm hd hp => exact hm ▸ List.prefix_rfl

end Session

end MarketFeed
