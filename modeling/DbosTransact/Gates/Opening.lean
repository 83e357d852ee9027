import DbosTransact.Gates.Recv

/-!
# Whose message an opening consumes

The audience is asked when a message is delivered; the message is consumed later, by its topic alone. So it
may be consumed by the next opening, whose audience never admitted the caller, unless a gate is opened at
another step only when nothing is left of the opening before (`OpensClear`).
-/

namespace Dbos.GateRecv

open Relational Lts

variable {n m : ℕ} {cfg : Config} {s t : State n m} {d d' : Data}

def Sanctioned (cfg : Config) (d : Data) (messageUUID : String) (stepID : Int) : Prop :=
  ∃ x ∈ d.accepted, x.messageUUID = messageUUID ∧ x.gateStep = some stepID ∧
    x.audienceStep = some stepID ∧ x.caller.matchesAudience (cfg.input stepID).audience = true

/-- Every message was consumed by the opening that it was delivered to. -/
def OwnAudience (cfg : Config) (d : Data) : Prop :=
  ∀ ρ ∈ d.receipts, Sanctioned cfg d ρ.messageUUID ρ.stepID

def Phase.step? : Phase → Option Int
  | .idle | .entered _ => none
  | .opened stepID | .ready stepID _ => some stepID
  | .begun a | .checked a | .locking a _ | .consumed a _ | .closed a _ _ _ => some a.call.stepID

/-- The delivery has found the gate open, and may still be delivered. -/
def Delivery.passed : Delivery → Bool
  | .admitted _ _ _ => true
  | .decided _ _ outcome _ => outcome = .delivered
  | _ => false

/-- **The condition.** A gate is opened at another step than before only when nothing is left of the
opening before; and nobody sends to its topic without the gate. -/
def OpensClear (cfg : Config) (s : State n m) : Action n m → Prop
  | .exec e (.openGate _ _) => ∀ stepID ∈ (s.execs e).entered?, s.data.openedBy? cfg ≠ some stepID →
      s.data.unconsumed cfg = [] ∧ (∀ k, (s.clients k).passed = false) ∧ ∀ j, (s.execs j).step? = none
  | .env (.send input _ _ _) => ¬ (input.destinationID = cfg.workflowID ∧
      normalizeTopic input.topic = cfg.topic)
  | _ => True

/-! ### What is known -/

/-- The message was delivered to the opening that has the gate now. -/
def Current (cfg : Config) (d : Data) (messageUUID : String) : Prop :=
  ∃ stepID, d.openedBy? cfg = some stepID ∧ Sanctioned cfg d messageUUID stepID

def Phase.takes? : Phase → Option String
  | .locking _ messageUUID => some messageUUID
  | .consumed _ message | .closed _ message _ _ => message.map (·.messageUUID)
  | _ => none

structure ExecOk (cfg : Config) (d : Data) (p : Phase) : Prop where
  step : ∀ stepID, p.step? = some stepID → d.openedBy? cfg = some stepID
  takes : ∀ messageUUID, p.takes? = some messageUUID → Current cfg d messageUUID

def DeliveryOk (cfg : Config) (d : Data) : Delivery → Prop
  | .idle => True
  | .begun i _ | .found i _ _ => i.workflowID = cfg.workflowID ∧ i.gate = cfg.gate
  | .admitted i _ gateStep => (i.workflowID = cfg.workflowID ∧ i.gate = cfg.gate) ∧
      ∃ stepID, gateStep = some stepID ∧ d.openedBy? cfg = some stepID
  | .decided i _ outcome seen => outcome = .delivered → ∃ stepID, d.openedBy? cfg = some stepID ∧
      seen = (some stepID, some stepID) ∧
      i.caller.matchesAudience (cfg.input stepID).audience = true

structure DataOk (cfg : Config) (d : Data) : Prop where
  audience : ∀ stepID, d.openedBy? cfg = some stepID → ∀ p,
    p ∈ d.db.audienceOf cfg.workflowID cfg.gate ↔ p ∈ (cfg.input stepID).audience
  messages : ∀ r ∈ d.unconsumed cfg, Current cfg d r.messageUUID
  receipts : OwnAudience cfg d

structure OpeningInv (cfg : Config) (s : State n m) : Prop where
  data : DataOk cfg s.data
  execs : ∀ e, ExecOk cfg s.data (s.execs e)
  clients : ∀ k, DeliveryOk cfg s.data (s.clients k)

structure Continues (cfg : Config) (d d' : Data) : Prop where
  openedBy : d'.openedBy? cfg = d.openedBy? cfg
  accepted : d.accepted ⊆ d'.accepted

theorem Sanctioned.mono {messageUUID : String} {stepID : Int} (h : Sanctioned cfg d messageUUID stepID)
    (hsub : d.accepted ⊆ d'.accepted) : Sanctioned cfg d' messageUUID stepID :=
  h.imp fun _ hx => ⟨hsub hx.1, hx.2⟩

theorem Current.mono {messageUUID : String} (h : Current cfg d messageUUID) (hc : Continues cfg d d') :
    Current cfg d' messageUUID :=
  h.imp fun _ hk => ⟨hc.openedBy.trans hk.1, hk.2.mono hc.accepted⟩

theorem ExecOk.mono {p : Phase} (h : ExecOk cfg d p) (hc : Continues cfg d d') : ExecOk cfg d' p :=
  ⟨fun k hk => hc.openedBy.trans (h.step k hk), fun u hu => (h.takes u hu).mono hc⟩

theorem DeliveryOk.mono {p : Delivery} (h : DeliveryOk cfg d p) (hc : Continues cfg d d') :
    DeliveryOk cfg d' p := by
  cases p with
  | idle => trivial
  | begun i now | found i now status => exact h
  | admitted i now gateStep => simpa only [DeliveryOk, hc.openedBy] using h
  | decided i now outcome seen => simpa only [DeliveryOk, hc.openedBy] using h

theorem DeliveryOk.of_not_passed {p : Delivery} (h : DeliveryOk cfg d p) (hp : p.passed = false) :
    DeliveryOk cfg d' p := by
  cases p with
  | idle => trivial
  | begun i now | found i now status => exact h
  | admitted i now gateStep => cases hp
  | decided i now outcome seen =>
    intro houtcome
    simp [Delivery.passed, houtcome] at hp

theorem openedBy?_of_keeps (h : Keeps cfg d d') : d'.openedBy? cfg = d.openedBy? cfg := by
  rw [Data.openedBy?, Data.openedBy?, h.gate]

theorem mem_unconsumed {r : NotificationRow} : r ∈ d.unconsumed cfg ↔
    r ∈ d.db.sys.notifications.rows ∧ r.addressed cfg.workflowID cfg.topic = true ∧
      r.consumed = false := by
  simp [Data.unconsumed, NotificationTable.unconsumed]

/-! ### Openings -/

theorem openedBy?_of_openedAt {stepID : Int} (h : OpenedAt cfg d stepID d') :
    d'.openedBy? cfg = some stepID := by
  obtain ⟨g, hg, -, hstep⟩ := h.gate
  rw [Data.openedBy?, hg, Option.map_some, hstep]

theorem unconsumed_of_openedAt {stepID : Int} (h : OpenedAt cfg d stepID d') :
    d'.unconsumed cfg = d.unconsumed cfg := by
  rw [Data.unconsumed, Data.unconsumed, h.sys]

theorem Phase.step?_of_takes? {p : Phase} {messageUUID : String} (h : p.takes? = some messageUUID) :
    ∃ stepID, p.step? = some stepID := by
  cases p with
  | locking a u => exact ⟨_, rfl⟩
  | consumed a message => exact ⟨_, rfl⟩
  | closed a message closedAt deliveryID => exact ⟨_, rfl⟩
  | idle | entered | opened | ready | begun | checked => cases h

theorem ExecOk.of_step?_eq_none {p : Phase} (h : p.step? = none) : ExecOk cfg d p := by
  refine ⟨fun k hk => ?_, fun u hu => ?_⟩
  · rw [h] at hk
    cases hk
  · obtain ⟨k, hk⟩ := Phase.step?_of_takes? hu
    rw [h] at hk
    cases hk

theorem DataOk.opened {stepID : Int} (h : DataOk cfg d) (hopened : OpenedAt cfg d stepID d')
    (hmessages : ∀ r ∈ d'.unconsumed cfg, Current cfg d' r.messageUUID) : DataOk cfg d' where
  audience k hk := by
    obtain rfl := Option.some.inj ((openedBy?_of_openedAt hopened).symm.trans hk)
    exact hopened.audience
  messages := hmessages
  receipts ρ hρ := by
    rw [hopened.receipts] at hρ
    exact (h.receipts ρ hρ).mono (hopened.accepted ▸ List.Subset.refl _)

/-- Where the opening stays, only the execution that takes the step has to be looked at. -/
theorem OpeningInv.move {e : Fin n} {p : Phase} (h : OpeningInv cfg s) (hdata : DataOk cfg d')
    (hc : Continues cfg s.data d') (hp : ExecOk cfg d' p) (rs : List Return) :
    OpeningInv cfg { s with data := d', execs := Function.update s.execs e p, returns := rs } where
  data := hdata
  execs := (Function.forall_update_iff s.execs fun _ q => ExecOk cfg d' q).2
    ⟨hp, fun j _ => (h.execs j).mono hc⟩
  clients k := (h.clients k).mono hc

/-- An opening at the step that has the gate already continues; at another step it begins anew. -/
theorem inv_opens {e : Fin n} {stepID : Int} {p : Phase} (h : OpeningInv cfg s)
    (hopened : OpenedAt cfg s.data stepID d') (hp : p.step? = none ∨ p = .opened stepID)
    (hC : s.data.openedBy? cfg ≠ some stepID → s.data.unconsumed cfg = [] ∧
      (∀ k, (s.clients k).passed = false) ∧ ∀ j, (s.execs j).step? = none) (rs : List Return) :
    OpeningInv cfg { s with data := d', execs := Function.update s.execs e p, returns := rs } := by
  have hself : ExecOk cfg d' p := by
    rcases hp with hp | rfl
    · exact .of_step?_eq_none hp
    · refine ⟨fun k hk => ?_, fun u hu => by cases hu⟩
      cases hk
      exact openedBy?_of_openedAt hopened
  by_cases hsame : s.data.openedBy? cfg = some stepID
  · have hc : Continues cfg s.data d' :=
      ⟨(openedBy?_of_openedAt hopened).trans hsame.symm, hopened.accepted ▸ List.Subset.refl _⟩
    refine h.move (h.data.opened hopened fun r hr => ?_) hc hself rs
    rw [unconsumed_of_openedAt hopened] at hr
    exact (h.data.messages r hr).mono hc
  · obtain ⟨hempty, hpassed, hidle⟩ := hC hsame
    refine ⟨h.data.opened hopened fun r hr => ?_, ?_, fun k => (h.clients k).of_not_passed (hpassed k)⟩
    · rw [unconsumed_of_openedAt hopened, hempty] at hr
      cases hr
    · exact (Function.forall_update_iff s.execs fun _ q => ExecOk cfg d' q).2
        ⟨hself, fun j _ => .of_step?_eq_none (hidle j)⟩

/-! ### Checkpoints -/

theorem continues_commit (a : Recv.Attempt) (message : Option NotificationRow)
    (closedAt completedAt : Int) : Continues cfg d (d.commit cfg a message closedAt completedAt) := by
  refine ⟨?_, List.Subset.refl _⟩
  rw [Data.openedBy?, gate?_commit, Option.map_map]
  rfl

theorem unconsumed_commit (a : Recv.Attempt) (message : Option NotificationRow)
    (closedAt completedAt : Int) :
    (d.commit cfg a message closedAt completedAt).unconsumed cfg ⊆ d.unconsumed cfg := by
  intro r hr
  obtain ⟨hr, haddressed, hunconsumed⟩ := mem_unconsumed.1 hr
  refine mem_unconsumed.2 ⟨?_, haddressed, hunconsumed⟩
  cases message with
  | none => exact hr
  | some x =>
    obtain ⟨r₀, hr₀, rfl⟩ := NotificationTable.mem_consume.1 hr
    split_ifs at hunconsumed ⊢
    · cases hunconsumed
    · exact hr₀

theorem DataOk.commit {a : Recv.Attempt} {message : Option NotificationRow} {closedAt : Int}
    {deliveryID : String} (h : DataOk cfg d) (hexec : ExecOk cfg d (.closed a message closedAt deliveryID))
    (completedAt : Int) : DataOk cfg (d.commit cfg a message closedAt completedAt) := by
  have hc : Continues cfg d (d.commit cfg a message closedAt completedAt) := continues_commit ..
  refine ⟨fun k hk => h.audience k (hc.openedBy.symm.trans hk),
    fun r hr => (h.messages r (unconsumed_commit a message closedAt completedAt hr)).mono hc, ?_⟩
  intro ρ hρ
  rcases List.mem_append.1 hρ with hρ | hρ
  · exact (h.receipts ρ hρ).mono hc.accepted
  · obtain ⟨r, hr, rfl⟩ := List.mem_map.1 hρ
    obtain rfl := Option.mem_toList.1 hr
    obtain ⟨k, hk, hsanctioned⟩ := hexec.takes r.messageUUID rfl
    obtain rfl := Option.some.inj ((hexec.step _ rfl).symm.trans hk)
    exact hsanctioned.mono hc.accepted

theorem ExecOk.goto {p p' : Phase} (h : ExecOk cfg d p) (hstep : p'.step? = p.step?)
    (htakes : ∀ u, p'.takes? = some u → p.takes? = some u ∨ Current cfg d u) : ExecOk cfg d p' where
  step k hk := h.step k (hstep ▸ hk)
  takes u hu := (htakes u hu).elim (h.takes u) id

theorem ExecOk.quiet {free : Lock → Bool} {p p' : Phase} {x : ExecAction} {returned : Option Return}
    (hdata : DataOk cfg d) (h : ExecOk cfg d p) (hq : quietStep cfg free d p x = some (p', returned)) :
    ExecOk cfg d p' := by
  unfold quietStep at hq
  split at hq
  · -- `enter`
    split at hq <;> (cases hq; exact .of_step?_eq_none rfl)
  · -- `wait`
    cases hq
    exact h.goto rfl fun u hu => by cases hu
  · -- `begin`
    cases hq
    exact h.goto rfl fun u hu => by cases hu
  · -- `check`
    split at hq
    · cases hq
      exact h.goto rfl fun u hu => by cases hu
    · cases hq
      exact .of_step?_eq_none rfl
    · cases hq
      exact .of_step?_eq_none rfl
  · -- `select` without a message
    split_ifs at hq
    cases hq
    exact h.goto rfl fun u hu => by cases hu
  · -- `select` of a message that is there
    split_ifs at hq with hselect
    cases hq
    refine h.goto rfl fun u hu => .inr ?_
    cases hu
    obtain ⟨r, hr, hold⟩ := (Option.any_eq_true _ _).1 hselect
    obtain rfl := Table.key_of_find? hr
    exact hdata.messages r (of_decide_eq_true hold).1
  · -- `update` of the message selected
    split_ifs at hq
    cases hq
    refine h.goto rfl fun u hu => .inl ?_
    obtain ⟨r, hr, rfl⟩ := Option.map_eq_some_iff.1 hu
    exact congrArg some (Table.key_of_find? hr).symm
  · -- `closeGate`
    split_ifs at hq
    cases hq
    exact h.goto rfl fun u hu => .inl hu
  iterate 4
    · -- `abort`
      cases hq
      exact h.goto rfl fun u hu => by cases hu
  · -- `leave`
    cases hq
    exact .of_step?_eq_none rfl
  · cases hq

theorem inv_exec {e : Fin n} {x : ExecAction} (h : OpeningInv cfg s) (hC : OpensClear cfg s (.exec e x))
    (hstep : step cfg s (.exec e x) = some t) : OpeningInv cfg t := by
  obtain ⟨r, hr, rfl⟩ := Option.map_eq_some_iff.1 hstep
  have hp := h.execs e
  generalize hphase : s.execs e = p at hr hp
  have hsame : Continues cfg s.data s.data := ⟨rfl, List.Subset.refl _⟩
  cases executes_of_execStep hr with
  | @opens stepID now acknowledged d' hopened =>
    refine inv_opens h hopened ?_ (hC stepID (by rw [hphase]; rfl)) _
    cases acknowledged with
    | false => exact .inl rfl
    | true => exact .inr rfl
  | @commits a message closedAt completedAt deliveryID acknowledged hrecords =>
    have hc : Continues cfg s.data (s.data.commit cfg a message closedAt completedAt) :=
      continues_commit ..
    refine h.move (h.data.commit hp completedAt) hc ?_ _
    cases acknowledged with
    | false => exact (hp.mono hc).goto rfl fun u hu => by cases hu
    | true => exact .of_step?_eq_none rfl
  | refused => exact h.move h.data hsame (.of_step?_eq_none rfl) _
  | quiet hq => exact h.move h.data hsame (.quiet h.data hp hq) _

/-! ### Deliveries -/

theorem matchesAudience_congr {caller : Caller} {l l' : List GatePrincipal} (h : ∀ p, p ∈ l ↔ p ∈ l') :
    caller.matchesAudience l = caller.matchesAudience l' := by
  have hany : ∀ q : GatePrincipal → Bool, l.any q = l'.any q := by
    intro q
    rw [Bool.eq_iff_iff, List.any_eq_true, List.any_eq_true]
    exact exists_congr fun p => and_congr_left fun _ => h p
  rw [Caller.matchesAudience, Caller.matchesAudience, hany, hany]

theorem notifications_deliver {i : DeliverInput} {outcome : GateOutcome}
    {seen : Option Int × Option Int} {drawn : GateDb.Drawn} {r : NotificationRow}
    (h : r ∈ (d.deliver i outcome seen drawn).unconsumed cfg) :
    r ∈ d.unconsumed cfg ∨ outcome = .delivered ∧ r.messageUUID = drawn.messageUUID := by
  by_cases houtcome : outcome = .delivered
  · obtain ⟨hr, haddressed, hunconsumed⟩ := mem_unconsumed.1 h
    simp only [Data.deliver, GateDb.recordDelivery, if_pos houtcome] at hr
    rcases Table.mem_of_mem_insert hr with hr | rfl
    · exact .inl (mem_unconsumed.2 ⟨hr, haddressed, hunconsumed⟩)
    · exact .inr ⟨houtcome, rfl⟩
  · left
    simpa only [Data.unconsumed, Data.deliver, GateDb.recordDelivery, if_neg houtcome] using h

theorem accepted_deliver (i : DeliverInput) (outcome : GateOutcome) (seen : Option Int × Option Int)
    (drawn : GateDb.Drawn) : d.accepted ⊆ (d.deliver i outcome seen drawn).accepted := by
  simp only [Data.deliver]
  split_ifs
  · exact List.subset_append_left _ _
  · exact List.Subset.refl _

theorem DataOk.deliver {i : DeliverInput} {now : Int} {outcome : GateOutcome}
    {seen : Option Int × Option Int} (h : DataOk cfg d)
    (hdelivery : DeliveryOk cfg d (.decided i now outcome seen)) (drawn : GateDb.Drawn) :
    DataOk cfg (d.deliver i outcome seen drawn) := by
  have hkeeps : Keeps cfg d (d.deliver i outcome seen drawn) := keeps_deliver ..
  have hc : Continues cfg d (d.deliver i outcome seen drawn) :=
    ⟨openedBy?_of_keeps hkeeps, accepted_deliver ..⟩
  refine ⟨fun k hk => ?_, fun r hr => ?_, fun ρ hρ => (h.receipts ρ hρ).mono hc.accepted⟩
  · rw [hkeeps.audience]
    exact h.audience k (hc.openedBy.symm.trans hk)
  · rcases notifications_deliver hr with hr | ⟨houtcome, huuid⟩
    · exact (h.messages r hr).mono hc
    · obtain ⟨k, hk, hseen, hmatches⟩ := hdelivery houtcome
      refine ⟨k, hc.openedBy.trans hk, ⟨drawn.messageUUID, i.caller, seen.1, seen.2⟩, ?_, huuid.symm, ?_⟩
      · simp [Data.deliver, houtcome]
      · exact ⟨congrArg Prod.fst hseen, congrArg Prod.snd hseen, hmatches⟩

theorem DeliveryOk.serves {p : Delivery} {x : ClientAction} {r : Data × Delivery} (hdata : DataOk cfg d)
    (h : DeliveryOk cfg d p) (hs : Serves cfg d p x r) : DeliveryOk cfg r.1 r.2 := by
  cases hs with
  | begins hid hgate => exact ⟨hid, hgate⟩
  | finds => exact h
  | admits hg _ => exact ⟨h, _, rfl, by rw [Data.openedBy?, hg]; rfl⟩
  | rejects => exact fun houtcome => by cases houtcome
  | @judges i now gateStep =>
    obtain ⟨⟨hid, hgate⟩, k, rfl, hk⟩ := h
    intro houtcome
    have hmatches : d.db.audienceMatches i = true := by
      by_contra hnot
      simp [hnot] at houtcome
    refine ⟨k, hk, by rw [hk], ?_⟩
    rw [GateDb.audienceMatches, hid, hgate] at hmatches
    exact (matchesAudience_congr (hdata.audience k hk)).symm.trans hmatches
  | commits => trivial
  | ends => trivial

theorem inv_client {k : Fin m} {x : ClientAction} (h : OpeningInv cfg s)
    (hstep : step cfg s (.client k x) = some t) : OpeningInv cfg t := by
  obtain ⟨r, hr, rfl⟩ := Option.map_eq_some_iff.1 hstep
  have hserves := serves_of_clientStep hr
  have hp := h.clients k
  generalize s.clients k = p at hserves hp
  have hdata : DataOk cfg r.1 ∧ s.data.accepted ⊆ r.1.accepted := by
    cases hserves with
    | commits => exact ⟨h.data.deliver hp _, accepted_deliver ..⟩
    | begins | finds | admits | rejects | judges | ends => exact ⟨h.data, List.Subset.refl _⟩
  have hc : Continues cfg s.data r.1 := ⟨openedBy?_of_keeps hserves.keeps, hdata.2⟩
  exact ⟨hdata.1, fun e => (h.execs e).mono hc,
    (Function.forall_update_iff s.clients fun _ q => DeliveryOk cfg r.1 q).2
      ⟨hp.serves h.data hserves, fun j _ => (h.clients j).mono hc⟩⟩

/-! ### The environment -/

theorem unconsumed_envStep {x : EnvAction} (hC : OpensClear cfg s (.env x))
    (h : envStep cfg s.data x = some d) : d.unconsumed cfg ⊆ s.data.unconsumed cfg := by
  cases x with
  | send input fresh now wakeNow =>
    cases h
    intro r hr
    obtain ⟨hr, haddressed, hunconsumed⟩ := mem_unconsumed.1 hr
    rcases Table.mem_of_mem_insert hr with hr | rfl
    · exact mem_unconsumed.2 ⟨hr, haddressed, hunconsumed⟩
    · obtain ⟨hdestination, htopic⟩ := Bool.and_eq_true_iff.1 haddressed
      exact (hC ⟨of_decide_eq_true hdestination, of_decide_eq_true htopic⟩).elim
  | ignoreDelivery deliveryID =>
    cases h
    exact List.Subset.refl _
  | operate op =>
    simp only [envStep] at h
    split at h
    · cases h
    next db hdb =>
      split_ifs at h with hthere
      cases h
      simp only [Data.unconsumed, (keeps_operate hdb hthere).2]
      exact List.Subset.refl _

theorem inv_env {x : EnvAction} (h : OpeningInv cfg s) (hC : OpensClear cfg s (.env x))
    (hstep : step cfg s (.env x) = some t) : OpeningInv cfg t := by
  obtain ⟨d, hd, rfl⟩ := Option.map_eq_some_iff.1 hstep
  obtain ⟨hkeeps, haccepted⟩ := keeps_envStep hd
  have hc : Continues cfg s.data d :=
    ⟨openedBy?_of_keeps hkeeps, haccepted ▸ List.Subset.refl _⟩
  refine ⟨⟨fun k hk => ?_, fun r hr => ?_, fun ρ hρ => ?_⟩, fun e => (h.execs e).mono hc,
    fun k => (h.clients k).mono hc⟩
  · rw [hkeeps.audience]
    exact h.data.audience k (hc.openedBy.symm.trans hk)
  · exact (h.data.messages r (unconsumed_envStep hC hd hr)).mono hc
  · rw [hkeeps.receipts] at hρ
    exact (h.data.receipts ρ hρ).mono hc.accepted

/-! ### All runs -/

theorem inv_init (hs : Init cfg s) : OpeningInv cfg s := by
  have hnone : s.data.openedBy? cfg = none := by rw [Data.openedBy?, hs.gate]; rfl
  refine ⟨⟨fun k hk => ?_, fun r hr => ?_, fun ρ hρ => ?_⟩, fun e => ?_, fun k => ?_⟩
  · rw [hnone] at hk
    cases hk
  · rw [hs.topic] at hr
    cases hr
  · rw [hs.receipts] at hρ
    cases hρ
  · rw [hs.execs e]
    exact .of_step?_eq_none rfl
  · rw [hs.clients k]
    trivial

/-- **A gate consumes only what was delivered to its own opening**, by callers whom its audience admits,
if every opening meets the condition. -/
theorem ownAudience_of_opensClear (h : Reaches (system cfg n m) (OpensClear cfg) s) :
    OwnAudience cfg s.data := by
  refine (h.invariant (I := OpeningInv cfg) (fun _ hs => inv_init hs) ?_).data.receipts
  intro s a t hs hC hstep
  cases a with
  | exec e x => exact inv_exec hs hC hstep
  | client k x => exact inv_client hs hstep
  | env x => exact inv_env hs hC hstep

section LeftOver

def annThenBob : Config :=
  approval fun stepID => if stepID = 0 then [⟨.user, "ann"⟩] else [⟨.user, "bob"⟩]

/-- Ann approves twice; the second approval is left for the next opening. -/
def leftOver (e : Fin n) (k l : Fin m) : List (Action n m) :=
  opening e 0 ++ looking k ++ delivering k "d0" "m0" ++ looking l ++ delivering l "d1" "m1" ++
    receiving e "m0" ++ opening e 2 ++ receiving e "m1"

/-- It is consumed by the opening that does not admit ann. -/
theorem left_over_consumed :
    ∃ s : State 1 2, Reaches (system annThenBob 1 2) (fun _ _ => True) s ∧
      (⟨2, "m1"⟩ : Recv.Receipt) ∈ s.data.receipts ∧
      (∀ x ∈ s.data.accepted, x.messageUUID = "m1" → x.gateStep = some 0 ∧ x.caller = approve.caller) ∧
      approve.caller.matchesAudience (annThenBob.input 2).audience = false ∧
      ¬ OwnAudience annThenBob s.data := by
  obtain ⟨s, hs, hp⟩ := exists_reaches (S := system annThenBob 1 2) (fun _ _ => True) (s := started 1 2)
    (leftOver 0 0 1)
    (fun s => (⟨2, "m1"⟩ : Recv.Receipt) ∈ s.data.receipts &&
      s.data.accepted.all fun x => x.messageUUID ≠ "m1" || x.gateStep = some 0 && x.caller = approve.caller)
    (init_started _ 1 2) (fun _ _ => trivial) (by decide +kernel)
  simp only [Bool.and_eq_true, Bool.or_eq_true, List.all_eq_true, decide_eq_true_eq] at hp
  obtain ⟨hreceipt, haccepted⟩ := hp
  have hfrom : ∀ x ∈ s.data.accepted, x.messageUUID = "m1" →
      x.gateStep = some 0 ∧ x.caller = approve.caller :=
    fun x hx huuid => (haccepted x hx).resolve_left fun hne => hne huuid
  refine ⟨s, hs, hreceipt, hfrom, by decide +kernel, fun hown => ?_⟩
  obtain ⟨x, hx, huuid, hgate, -⟩ := hown _ hreceipt
  rw [(hfrom x hx huuid).1] at hgate
  cases hgate

instance (cfg : Config) (s : State n m) : DecidablePred (OpensClear cfg s) := fun a =>
  match a with
  | .exec e (.openGate _ _) => inferInstanceAs (Decidable (∀ _ ∈ (s.execs e).entered?, _))
  | .env (.send _ _ _ _) => inferInstanceAs (Decidable (¬ _))
  | .exec _ (.enter _) | .exec _ (.commit _ _) | .exec _ (.wait _) | .exec _ (.begin _)
  | .exec _ .check | .exec _ (.select _) | .exec _ .update | .exec _ (.closeGate _) | .exec _ .abort
  | .exec _ .leave | .client _ _ | .env (.ignoreDelivery _) | .env (.operate _) =>
    inferInstanceAs (Decidable True)

theorem ownAudience_two_openings :
    ∃ s : State 1 1, OwnAudience openToAll s.data ∧ s.data.receipts = [⟨0, "m0"⟩, ⟨2, "m1"⟩] := by
  obtain ⟨s, hs, hp⟩ := exists_reaches (S := system openToAll 1 1) (OpensClear openToAll)
    (s := started 1 1)
    (opening 0 0 ++ looking 0 ++ delivering 0 "d0" "m0" ++ receiving 0 "m0" ++
      opening 0 2 ++ looking 0 ++ delivering 0 "d1" "m1" ++ receiving 0 "m1")
    (fun s => s.data.receipts = [⟨0, "m0"⟩, ⟨2, "m1"⟩])
    (init_started _ 1 1) (by decide +kernel) (by decide +kernel)
  exact ⟨s, ownAudience_of_opensClear hs, of_decide_eq_true hp⟩

end LeftOver

end Dbos.GateRecv
