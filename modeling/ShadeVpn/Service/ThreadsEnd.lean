import ShadeVpn.Service.PumpTun

/-!
# Every thread of the service ends

A connect thread goes round its loop, retries and sleeps, and in between it waits for the
session lock; a disconnect thread waits for that lock only.  Each thread has a rank that
every step of its own lowers unless it waits, and that no other thread touches.

* `thread_ends` — behind its command a connect thread takes at most 229 steps that change
  anything, and connects at most six times; a disconnect thread takes at most ten.
* `thread_progresses` — a thread that is not finished goes on, or the holder of the lock it
  waits for does.
-/

namespace ShadeVpn.Native

open Octets Handshake Reality Pump

/-! ## Ranks of native calls -/

/-- How many steps a call of `complete` has before it at most. -/
def completionRank : CallStage → ℕ
  | .entered => 4
  | .holding => 3
  | .confirming => 2
  | .rejecting => 1
  | .returned _ => 0

/-- How many steps a native call has before it at most. -/
def nativeRank {κ : Type} : ThreadState κ → ℕ
  | .returned _ => 0
  | .installed _ _ | .clearing _ | .sealing _ _ | .reading _ _ _ | .stopping | .turning _ => 1
  | .connecting _ _ | .rejected _ _ _ | .disconnecting | .probing _ | .starting _ _ => 2
  | .completing _ _ _ stage => completionRank stage + 3
  | .cloning _ => 8

theorem completionRank_advance {σ κ : Type} [Alphabet σ] [DecidableEq σ] (C : Crypto κ σ)
    (st : HandshakeState κ σ) (r : List σ) {stage : CallStage}
    (hgoing : ∀ result, stage ≠ .returned result) :
    completionRank (stage.advance C st r).2 < completionRank stage := by
  cases stage with
  | entered =>
    unfold CallStage.advance
    by_cases hdone : st.completed = true
    · simp [hdone, completionRank]
    · simp [hdone, completionRank]
  | holding =>
    unfold CallStage.advance
    rcases hcert : verifyTemporaryCertificate C st.authKey (r.take CERT_LEN) with e | ⟨⟩
    · dsimp only
      split_ifs <;> simp [completionRank]
    · dsimp only
      split_ifs <;> simp [completionRank]
  | confirming =>
    unfold CallStage.advance
    dsimp only
    split <;> simp [completionRank]
  | rejecting => simp [CallStage.advance, completionRank]
  | returned result => exact absurd rfl (hgoing result)

variable {ι κ : Type} [DecidableEq ι]

/-- **A step of a native call** lowers its rank, or the call waits for the session lock. -/
theorem nativeRank_step (C : Crypto κ UInt8) (s : Shared ι κ) (i : ι)
    (hbusy : ∀ result, s.thread i ≠ .returned result) :
    nativeRank ((s.step C i).thread i) < nativeRank (s.thread i) ∨
      s.step C i = s ∧ s.lock.isSome ∧ ¬ (s.thread i).Holds := by
  unfold Shared.step
  cases hat : s.thread i with
  | returned result => exact absurd hat (hbusy result)
  | connecting r io =>
    cases io with
    | some text => exact .inl (by simp [nativeRank])
    | none =>
      dsimp only
      split
      · exact .inl (by simp [nativeRank])
      · exact .inl (by simp [nativeRank])
      · split_ifs with hlock
        · exact .inr ⟨rfl, hlock, id⟩
        · exact .inl (by simp [nativeRank])
  | installed id vless => exact .inl (by simp [nativeRank])
  | cloning response =>
    dsimp only
    split_ifs with hlock
    · exact .inr ⟨rfl, hlock, id⟩
    · left
      split <;> simp [nativeRank, completionRank]
  | completing h bytes created stage =>
    left
    cases stage with
    | returned result =>
      cases result with
      | ok => simp [nativeRank]
      | error e => simp [nativeRank]
    | _ =>
      rw [Shared.goto_thread]
      exact Nat.add_lt_add_right (completionRank_advance C _ _ (by simp)) 3
  | rejected id created e =>
    dsimp only
    split_ifs with hlock
    · exact .inr ⟨rfl, hlock, fun h => h⟩
    · exact .inl (by simp [nativeRank])
  | disconnecting =>
    dsimp only
    split_ifs with hlock
    · exact .inr ⟨rfl, hlock, id⟩
    · exact .inl (by simp [nativeRank])
  | probing io =>
    dsimp only
    split_ifs with hlock
    · exact .inr ⟨rfl, hlock, id⟩
    · left
      split <;> simp [nativeRank]
  | starting blockIpv6 io =>
    dsimp only
    split_ifs with hlock
    · exact .inr ⟨rfl, hlock, id⟩
    · left
      split <;> simp [nativeRank]
  | stopping =>
    dsimp only
    split_ifs with hlock
    · exact .inr ⟨rfl, hlock, id⟩
    · exact .inl (by simp [nativeRank])
  | turning e =>
    left
    cases e <;> simp [nativeRank]
  | _ => exact .inl (by simp [nativeRank])

/-! ## The holder of the session lock -/

/-- The thread that the session lock is held by holds it. -/
def Shared.Held (s : Shared ι κ) : Prop := ∀ i, s.lock = some i → (s.thread i).Holds

/-- A thread that does not hold the lock leaves it to its holder. -/
theorem Shared.Held.kept {s s' : Shared ι κ} (h : s.Held) {i : ι} {t : ThreadState κ}
    (hi : ¬ (s.thread i).Holds) (hthread : s'.thread = Function.update s.thread i t)
    (hlock : s'.lock = s.lock) : s'.Held := by
  intro j hj
  rw [hlock] at hj
  have hij : j ≠ i := by
    rintro rfl
    exact hi (h j hj)
  rw [hthread, Function.update_of_ne hij]
  exact h j hj

theorem Shared.Held.taken {s s' : Shared ι κ} {i : ι} {t : ThreadState κ}
    (hthread : s'.thread = Function.update s.thread i t) (hlock : s'.lock = some i)
    (ht : t.Holds) : s'.Held := by
  intro j hj
  obtain rfl : i = j := Option.some.inj (hlock.symm.trans hj)
  rw [hthread, Function.update_self]
  exact ht

omit [DecidableEq ι] in
theorem Shared.Held.released {s' : Shared ι κ} (hlock : s'.lock = none) : s'.Held := by
  intro j hj
  rw [hlock] at hj
  cases hj

/-- **A step keeps the holder with the lock.** -/
theorem Shared.Held.step {C : Crypto κ UInt8} {s s' : Shared ι κ} (h : s.Held) {i : ι}
    (hmove : Shared.Moves C s i s') : s'.Held := by
  cases hmove with
  | idle => exact h
  | unreached here e => exact h.kept (by rw [here]; exact id) rfl rfl
  | install here hinit free => exact h.kept (by rw [here]; exact id) rfl rfl
  | storeVless here => exact h.kept (by rw [here]; exact id) rfl rfl
  | noClone here e => exact h.kept (by rw [here]; exact id) rfl rfl
  | clone here hh free => exact h.kept (by rw [here]; exact id) rfl rfl
  | accepted here => exact h.kept (by rw [here]; exact id) rfl rfl
  | refused here => exact h.kept (by rw [here]; exact id) rfl rfl
  | advance here hmove hgoing => exact h.kept (by rw [here]; exact id) rfl rfl
  | dropRejected here free => exact .taken rfl rfl trivial
  | drop here free => exact .taken rfl rfl trivial
  | clear here => exact .released rfl
  | noProbe here e => exact h.kept (by rw [here]; exact id) rfl rfl
  | probe here free hgate => exact .taken rfl rfl trivial
  | sealed here => exact .released rfl
  | noStart here e => exact h.kept (by rw [here]; exact id) rfl rfl
  | start here free hgate => exact .taken rfl rfl trivial
  | read here => exact .released rfl
  | stop here free => exact h.kept (by rw [here]; exact id) rfl rfl
  | outbound here => exact h.kept (by rw [here]; exact id) rfl rfl
  | inbound here => exact h.kept (by rw [here]; exact id) rfl rfl

end ShadeVpn.Native

namespace ShadeVpn.Service

open Octets Handshake Transport Pump Native

variable {ι κ : Type} [DecidableEq ι] (C : Crypto κ UInt8)

/-! ## Ranks of threads -/

/-- The delays a policy has left. -/
def BackoffPolicy.left (b : BackoffPolicy) : ℕ := (b.maxAttempts.toInt - b.attempt.toInt).toNat

/-- Every delay is one of those. -/
theorem BackoffPolicy.left_nextDelayMs {b b' : BackoffPolicy} {draw : Int64 → Int64}
    {delay : Int64} (h : b.nextDelayMs draw = some (delay, b')) : b'.left + 1 = b.left := by
  unfold BackoffPolicy.nextDelayMs at h
  split_ifs at h with hspent
  rw [Int32.le_iff_toInt_le] at hspent
  simp only [Option.some.injEq, Prod.mk.injEq] at h
  obtain ⟨-, rfl⟩ := h
  have hmax := b.maxAttempts.toInt_lt
  have hmin := b.attempt.le_toInt
  have hone : (1 : Int32).toInt = 1 := rfl
  simp only [BackoffPolicy.left]
  rw [Int32.toInt_add, hone, Int.bmod_eq_of_le (by omega) (by omega)]
  omega

/-- How many steps a connect thread has before it at most until it asks for a delay or
ends. -/
def Stage.rank : Stage → ℕ
  | .entered _ => 44
  | .loading _ => 42
  | .excluding => 40
  | .establishing => 39
  | .fetching => 38
  | .fetched _ => 37
  | .established => 35
  | .looping => 34
  | .buildRealityLane => 33
  | .probeControlPlane => 32
  | .connectTunnel => 30
  | .connectReturned _ => 27
  | .connectFailed _ => 9
  | .connectDropped _ => 6
  | .completeHandshake => 24
  | .completeReturned => 15
  | .runDataPlaneProbe => 12
  | .probeReturned => 9
  | .recheck => 7
  | .startPump => 6
  | .startReturned => 3
  | .retry => 3
  | .sleeping => 38
  | .waking => 37
  | .quit => 7
  | .quitReturned => 4
  | .ended => 1

def StopStage.rank : StopStage → ℕ
  | .disconnect => 10
  | .disconnected => 7
  | .reading => 4
  | .closing _ => 3
  | .clearing => 2
  | .ended => 1

/-- How many steps of its own a thread has before it at most, outside the native layer and
in the calls to come.  A delay costs as much as the attempt behind it. -/
def ServiceThread.rank : ServiceThread → ℕ
  | .finished => 0
  | .connect t => t.acts.length + t.stage.rank + 37 * t.backoff.left
  | .disconnect t => t.acts.length + t.stage.rank

/-- The rank of thread `i`, with the native call it is in. -/
def ShadeVpnService.rank (s : ShadeVpnService ι κ) (i : ι) : ℕ :=
  nativeRank (s.native.thread i) + (s.thread i).rank

theorem rank_goto (s : ShadeVpnService ι κ) (i : ι) (u : ServiceThread) :
    (s.goto i u).rank i = nativeRank (s.native.thread i) + u.rank := by
  unfold ShadeVpnService.rank ShadeVpnService.goto
  dsimp only
  rw [Function.update_self]

theorem rank_call (s : ShadeVpnService ι κ) (i : ι) (u : ServiceThread) (op : Op κ) :
    ((s.goto i u).call i op).rank i = nativeRank op.entry + u.rank := by
  unfold ShadeVpnService.rank ShadeVpnService.call ShadeVpnService.goto Shared.goto
  dsimp only
  rw [Function.update_self, Function.update_self]

variable (os : Platform)

/-- **A step of a connect thread** lowers its rank, or the thread sleeps on. -/
theorem rank_connectStep (s : ShadeVpnService ι κ) (i : ι) {t : ConnectThread}
    (here : s.thread i = .connect t) (ready : t.acts = []) (env : Env κ)
    {result : Except SessionError Unit} (back : s.native.thread i = .returned result) :
    (s.connectStep os i t env result).rank i < s.rank i ∨
      s.connectStep os i t env result = s ∧ env.slept = false := by
  have hrank : s.rank i = t.stage.rank + 37 * t.backoff.left := by
    unfold ShadeVpnService.rank
    rw [back, here]
    simp [nativeRank, ServiceThread.rank, ready]
  have hgo (fd : Int32) (acts : List Action) (stage : Stage)
      (hlow : acts.length + stage.rank < t.stage.rank) :
      (s.goto i (.connect { t with fd, acts, stage })).rank i < s.rank i := by
    rw [rank_goto, hrank, back]
    simp only [nativeRank, ServiceThread.rank]
    omega
  have hcall (stage : Stage) (op : Op κ) (hlow : nativeRank op.entry + stage.rank < t.stage.rank) :
      ((s.goto i (.connect { t with acts := [], stage })).call i op).rank i < s.rank i := by
    rw [rank_call, hrank]
    simp only [ServiceThread.rank, List.length_nil]
    omega
  unfold ShadeVpnService.connectStep
  dsimp only
  cases hat : t.stage with
  | entered rawProfile =>
    left
    cases rawProfile with
    | none => exact hgo _ _ _ (by simp [hat, Stage.rank])
    | some rawProfile =>
      dsimp only
      split_ifs
      · exact hgo _ _ _ (by simp [hat, Stage.rank])
      · exact hgo _ _ _ (by simp [hat, Stage.rank])
  | loading rawProfile =>
    left
    dsimp only
    split <;> exact hgo _ _ _ (by simp [hat, Stage.rank])
  | excluding =>
    left
    dsimp only
    split_ifs <;> exact hgo _ _ _ (by simp [hat, Stage.rank])
  | establishing =>
    left
    dsimp only
    split <;> exact hgo _ _ _ (by simp [hat, Stage.rank])
  | fetching => exact .inl (hgo _ _ _ (by simp [hat, Stage.rank]))
  | fetched tun =>
    left
    cases tun with
    | none => exact hgo _ _ _ (by simp [hat, Stage.rank])
    | some tun =>
      dsimp only
      split <;> exact hgo _ _ _ (by simp [hat, Stage.rank])
  | established =>
    left
    dsimp only
    split_ifs <;> exact hgo _ _ _ (by simp [hat, Stage.rank])
  | looping =>
    left
    dsimp only
    split_ifs <;> exact hgo _ _ _ (by simp [hat, Stage.rank])
  | buildRealityLane =>
    left
    dsimp only
    split <;> exact hgo _ _ _ (by simp [hat, Stage.rank])
  | probeControlPlane =>
    left
    dsimp only
    split <;> exact hgo _ _ _ (by simp [hat, Stage.rank])
  | connectTunnel =>
    left
    dsimp only
    split
    · exact hgo _ _ _ (by simp [hat, Stage.rank])
    · exact hgo _ _ _ (by simp [hat, Stage.rank])
    · exact hcall _ _ (by simp [hat, Stage.rank, Op.entry, nativeRank])
    · exact hcall _ _ (by simp [hat, Stage.rank, Op.entry, nativeRank])
  | connectReturned answer =>
    left
    dsimp only
    split
    · exact hgo _ _ _ (by simp [hat, Stage.rank])
    · exact hgo _ _ _ (by simp [hat, Stage.rank])
    · split_ifs <;> exact hgo _ _ _ (by simp [hat, Stage.rank])
  | connectFailed message =>
    exact .inl (hcall _ _ (by simp [hat, Stage.rank, Op.entry, nativeRank]))
  | connectDropped message => exact .inl (hgo _ _ _ (by simp [hat, Stage.rank]))
  | completeHandshake =>
    left
    dsimp only
    split
    · exact hgo _ _ _ (by simp [hat, Stage.rank])
    · split_ifs
      · exact hgo _ _ _ (by simp [hat, Stage.rank])
      · split
        · exact hgo _ _ _ (by simp [hat, Stage.rank])
        · exact hcall _ _ (by simp [hat, Stage.rank, Op.entry, nativeRank])
  | completeReturned =>
    left
    dsimp only
    split <;> exact hgo _ _ _ (by simp [hat, Stage.rank])
  | runDataPlaneProbe =>
    left
    dsimp only
    split
    · exact hgo _ _ _ (by simp [hat, Stage.rank])
    · exact hcall _ _ (by simp [hat, Stage.rank, Op.entry, nativeRank])
  | probeReturned =>
    left
    dsimp only
    split <;> exact hgo _ _ _ (by simp [hat, Stage.rank])
  | recheck =>
    left
    dsimp only
    split_ifs <;> exact hgo _ _ _ (by simp [hat, Stage.rank])
  | startPump =>
    left
    dsimp only
    split
    · exact hgo _ _ _ (by simp [hat, Stage.rank])
    · exact hcall _ _ (by simp [hat, Stage.rank, Op.entry, nativeRank])
  | startReturned =>
    left
    dsimp only
    split <;> exact hgo _ _ _ (by simp [hat, Stage.rank])
  | retry =>
    left
    dsimp only
    split_ifs
    · exact hgo _ _ _ (by simp [hat, Stage.rank])
    · split
      · exact hgo _ _ _ (by simp [hat, Stage.rank])
      · next delay backoff hnext =>
        -- the delay pays for the next attempt
        have hleft := BackoffPolicy.left_nextDelayMs hnext
        rw [rank_goto, hrank, back, hat]
        simp only [nativeRank, ServiceThread.rank, Stage.rank, List.length_singleton]
        omega
  | sleeping =>
    dsimp only
    split_ifs with hslept hsuperseded
    · exact .inl (hgo _ _ _ (by simp [hat, Stage.rank]))
    · exact .inl (hgo _ _ _ (by simp [hat, Stage.rank]))
    · exact .inr ⟨rfl, by simpa using hslept⟩
  | waking =>
    left
    dsimp only
    split_ifs <;> exact hgo _ _ _ (by simp [hat, Stage.rank])
  | quit => exact .inl (hcall _ _ (by simp [hat, Stage.rank, Op.entry, nativeRank]))
  | quitReturned => exact .inl (hgo _ _ _ (by simp [hat, Stage.rank]))
  | ended =>
    left
    rw [rank_goto, hrank, back, hat]
    simp only [nativeRank, ServiceThread.rank, Stage.rank]
    omega

/-- A step of a disconnect thread lowers its rank. -/
theorem rank_disconnectStep (s : ShadeVpnService ι κ) (i : ι) {t : DisconnectThread}
    (here : s.thread i = .disconnect t) (ready : t.acts = []) {result : Except SessionError Unit}
    (back : s.native.thread i = .returned result) :
    (s.disconnectStep i t).rank i < s.rank i := by
  have hrank : s.rank i = t.stage.rank := by
    unfold ShadeVpnService.rank
    rw [back, here]
    simp [nativeRank, ServiceThread.rank, ready]
  have hgo (acts : List Action) (stage : StopStage)
      (hlow : acts.length + stage.rank < t.stage.rank) :
      (s.goto i (.disconnect { t with acts, stage })).rank i < s.rank i := by
    rw [rank_goto, hrank, back]
    simp only [nativeRank, ServiceThread.rank]
    omega
  unfold ShadeVpnService.disconnectStep
  dsimp only
  cases hat : t.stage with
  | disconnect =>
    rw [rank_call, hrank, hat]
    simp [ServiceThread.rank, StopStage.rank, Op.entry, nativeRank]
  | disconnected => exact hgo _ _ (by simp [hat, StopStage.rank])
  | reading => exact hgo _ _ (by simp [hat, StopStage.rank])
  | closing tun =>
    cases tun with
    | none => exact hgo _ _ (by simp [hat, StopStage.rank])
    | some tun => exact hgo _ _ (by simp [hat, StopStage.rank])
  | clearing => exact hgo _ _ (by simp [hat, StopStage.rank])
  | ended =>
    rw [rank_goto, hrank, back, hat]
    simp [nativeRank, ServiceThread.rank, StopStage.rank]

/-! ## Steps of the service -/

/-- Thread `i` waits for the session lock. -/
def ShadeVpnService.Waits (s : ShadeVpnService ι κ) (i : ι) : Prop :=
  s.native.lock.isSome ∧ ¬ (s.native.thread i).Holds ∧
    ∀ result, s.native.thread i ≠ .returned result

/-- A step of the native call that thread `i` is in. -/
theorem rank_nativeStep (s : ShadeVpnService ι κ) (i : ι)
    (busy : ∀ result, s.native.thread i ≠ .returned result) :
    (s.nativeStep C i).rank i < s.rank i ∨ s.nativeStep C i = s ∧ s.Waits i := by
  rcases nativeRank_step C s.native i busy with hlow | ⟨hsame, hlock, hfree⟩
  · left
    unfold ShadeVpnService.rank ShadeVpnService.nativeStep
    dsimp only
    exact Nat.add_lt_add_right hlow _
  · right
    refine ⟨?_, hlock, hfree, busy⟩
    unfold ShadeVpnService.nativeStep
    dsimp only
    rw [hsame, if_pos rfl, if_pos rfl]

/-- **A step of a thread** that is not finished lowers its rank, or it sleeps on or waits
for the session lock. -/
theorem rank_threadStep (s : ShadeVpnService ι κ) (i : ι) (env : Env κ) :
    (s.threadStep C os i env).rank i < s.rank i ∨
      s.threadStep C os i env = s ∧ (s.thread i = .finished ∨ env.slept = false ∨ s.Waits i) := by
  unfold ShadeVpnService.threadStep
  split
  · next result back =>
    rcases here : s.thread i with _ | ⟨generation, blockIpv6, fd, backoff, _ | ⟨act, acts⟩, stage⟩ |
      ⟨generation, _ | ⟨act, acts⟩, stage⟩
    · exact .inr ⟨rfl, .inl rfl⟩
    · rcases rank_connectStep os s i here rfl env back with hlow | ⟨hsame, hslept⟩
      · exact .inl hlow
      · exact .inr ⟨hsame, .inr (.inl hslept)⟩
    · left
      rw [rank_goto, perform_native, ShadeVpnService.rank, here]
      simp only [ServiceThread.rank, List.length_cons]
      omega
    · exact .inl (rank_disconnectStep s i here rfl back)
    · left
      rw [rank_goto, perform_native, ShadeVpnService.rank, here]
      simp only [ServiceThread.rank, List.length_cons]
      omega
  · next busy =>
    rcases rank_nativeStep C s i (fun result h => busy result h) with hlow | ⟨hsame, hwaits⟩
    · exact .inl hlow
    · exact .inr ⟨hsame, .inr (.inr hwaits)⟩

/-- A thread that holds the session lock goes on. -/
theorem rank_threadStep_of_holds (s : ShadeVpnService ι κ) (i : ι) (env : Env κ)
    (hholds : (s.native.thread i).Holds) : (s.threadStep C os i env).rank i < s.rank i := by
  have busy : ∀ result, s.native.thread i ≠ .returned result := by
    intro result hreturned
    rw [hreturned] at hholds
    exact hholds
  have hnative : s.threadStep C os i env = s.nativeStep C i := by
    unfold ShadeVpnService.threadStep
    split
    · next result back => exact absurd back (busy result)
    · rfl
  rw [hnative]
  rcases rank_nativeStep C s i busy with hlow | ⟨-, -, hfree, -⟩
  · exact hlow
  · exact absurd hholds hfree

/-- A step of thread `i` leaves the other threads where they are. -/
theorem ShadeVpnService.Moves.others {s s' : ShadeVpnService ι κ} {i j : ι}
    (hmove : ShadeVpnService.Moves C s i s') (hij : j ≠ i) :
    s'.thread j = s.thread j ∧ s'.native.thread j = s.native.thread j := by
  have hbeside : ∀ {s' : ShadeVpnService ι κ}, s.Beside i s' →
      s'.thread j = s.thread j ∧ s'.native.thread j = s.native.thread j := by
    intro s' h
    refine ⟨h.thread j hij, ?_⟩
    rcases h.native with hsame | ⟨op, hcall⟩
    · rw [hsame]
    · rw [hcall]
      exact Function.update_of_ne hij _ _
  cases hmove with
  | finished => exact ⟨rfl, rfl⟩
  | native busy =>
    refine ⟨rfl, ?_⟩
    show (s.native.step C i).thread j = s.native.thread j
    rw [(s.native.step_moves (C := C) i).thread]
    exact Function.update_of_ne hij _ _
  | writes here act acts => exact hbeside (s.beside_perform i _ act)
  | stopWrites here act acts => exact hbeside (s.beside_perform i _ act)
  | connect here ready back h => exact hbeside h.beside
  | disconnect here ready back => exact hbeside (s.disconnectStep_beside i _)

/-- The event is a command that spawns thread `i`. -/
def Event.Spawns (i : ι) : Event ι κ → Prop
  | .start j _ _ => j = i
  | .stop j => j = i
  | _ => False

/-- Whatever is no step of thread `i` and does not spawn it leaves it where it is. -/
theorem thread_of_other {s : ShadeVpnService ι κ} {i : ι} {e : Event ι κ} (hspawn : ¬ e.Spawns i)
    (hother : ∀ env, e ≠ .step i env) :
    (s.step C os e).thread i = s.thread i ∧
      (s.step C os e).native.thread i = s.native.thread i := by
  cases e with
  | start j rawProfile blockIpv6 =>
    have hij : i ≠ j := fun h => hspawn h.symm
    unfold ShadeVpnService.step
    dsimp only
    split_ifs
    · exact ⟨Function.update_of_ne hij _ _, rfl⟩
    · exact ⟨rfl, rfl⟩
  | stop j =>
    have hij : i ≠ j := fun h => hspawn h.symm
    unfold ShadeVpnService.step
    dsimp only
    split_ifs
    · exact ⟨Function.update_of_ne hij _ _, rfl⟩
    · exact ⟨rfl, rfl⟩
  | step j env =>
    have hij : i ≠ j := by
      rintro rfl
      exact hother env rfl
    exact (s.threadStep_moves j env).others C hij
  | turn e => exact ⟨rfl, rfl⟩

/-! ## Runs -/

open Classical in
/-- Whether the event is a step of thread `i` that changes anything. -/
noncomputable def changes (i : ι) (s : ShadeVpnService ι κ) : Event ι κ → ℕ
  | .step j env => if j = i ∧ s.threadStep C os j env ≠ s then 1 else 0
  | _ => 0

/-- Whether thread `i` calls `nativeConnectTunnel`. -/
def connects (i : ι) (s : ShadeVpnService ι κ) (e : Event ι κ) : ℕ :=
  if (s.thread i).call ≠ some .connect ∧ ((s.step C os e).thread i).call = some .connect then 1
  else 0

/-- A change costs thread `i` a step. -/
theorem changes_pays {i : ι} (s : ShadeVpnService ι κ) {e : Event ι κ} (hspawn : ¬ e.Spawns i) :
    changes C os i s e + (s.step C os e).rank i ≤ s.rank i := by
  by_cases hother : ∀ env, e ≠ .step i env
  · obtain ⟨hthread, hnative⟩ := thread_of_other C os (s := s) hspawn hother
    have hrank : (s.step C os e).rank i = s.rank i := by
      unfold ShadeVpnService.rank
      rw [hthread, hnative]
    have hnone : changes C os i s e = 0 := by
      cases e with
      | step j env =>
        refine if_neg fun h => hother env ?_
        rw [h.1]
      | _ => rfl
    omega
  · push Not at hother
    obtain ⟨env, rfl⟩ := hother
    show changes C os i s (.step i env) + (s.threadStep C os i env).rank i ≤ s.rank i
    rcases rank_threadStep C os s i env with hlow | ⟨hsame, -⟩
    · have hone : changes C os i s (.step i env) ≤ 1 := by
        unfold changes
        dsimp only
        split_ifs
        · exact le_rfl
        · exact Nat.zero_le 1
      omega
    · have hnone : changes C os i s (.step i env) = 0 := if_neg fun h => h.2 hsame
      rw [hsame, hnone, Nat.zero_add]

/-- A thread in a connect is a connect thread. -/
theorem stage_of_connect {u : ServiceThread} (h : u.call = some .connect) :
    ∃ t, u = .connect t ∧ t.stage.part = .connecting := by
  rcases u with _ | ⟨generation, blockIpv6, fd, backoff, acts, stage⟩ | ⟨generation, acts, stage⟩
  · cases h
  · refine ⟨_, rfl, ?_⟩
    cases stage with
    | connectReturned => rfl
    | _ => cases h
  · cases stage <;> cases h

/-- A connect leaves its thread with what the delays it has left may cost. -/
theorem rank_of_connect {s : ShadeVpnService ι κ} {i : ι} {env : Env κ}
    (hbefore : (s.thread i).call ≠ some .connect)
    (hafter : ((s.threadStep C os i env).thread i).call = some .connect) :
    ∃ n, (s.threadStep C os i env).rank i = 29 + 37 * n := by
  obtain ⟨t', hthread, hpart⟩ := stage_of_connect hafter
  have hself (s' : ShadeVpnService ι κ) (u : ServiceThread) : (s'.goto i u).thread i = u :=
    Function.update_self ..
  have hmove : ShadeVpnService.Moves C s i (s.threadStep C os i env) := s.threadStep_moves i env
  generalize s.threadStep C os i env = s' at hmove hafter hthread
  cases hmove with
  | finished => exact absurd hafter hbefore
  | native busy => exact absurd hafter hbefore
  | writes here act acts =>
    rw [hself] at hafter
    rw [here] at hbefore
    exact absurd hafter hbefore
  | stopWrites here act acts =>
    rw [hself] at hafter
    rw [here] at hbefore
    exact absurd hafter hbefore
  | @disconnect t here ready back =>
    have hdisconnect : (s.disconnectStep i t).thread i = .finished ∨
        ∃ u, (s.disconnectStep i t).thread i = .disconnect u := by
      unfold ShadeVpnService.disconnectStep
      dsimp only
      split
      · exact .inr ⟨_, hself _ _⟩
      · exact .inr ⟨_, hself _ _⟩
      · exact .inr ⟨_, hself _ _⟩
      · exact .inr ⟨_, hself _ _⟩
      · exact .inr ⟨_, hself _ _⟩
      · exact .inr ⟨_, hself _ _⟩
      · exact .inl (hself _ _)
    rw [hthread] at hdisconnect
    simp at hdisconnect
  | @connect t here ready result back _ h =>
    have hnot {t'' : ConnectThread} (hsame : s'.thread i = .connect t'')
        (hother : t''.stage.part ≠ .connecting) : ∃ n, s'.rank i = 29 + 37 * n := by
      obtain rfl : t' = t'' := ServiceThread.connect.inj (hthread.symm.trans hsame)
      exact absurd hpart hother
    cases h with
    | wait => exact absurd hafter hbefore
    | finish =>
      rw [hself] at hthread
      cases hthread
    | early acts stage hpart' => exact hnot (hself _ _) (by simp [hpart'])
    | establish => exact hnot (hself _ _) (by simp [Stage.part])
    | fetch => exact hnot (hself _ _) (by simp [Stage.part])
    | attempt backoff acts stage hfrom hpart' => exact hnot (hself _ _) (by simp [hpart'])
    | connect request io answer hfrom =>
      refine ⟨t.backoff.left, ?_⟩
      rw [rank_call]
      simp only [nativeRank, Op.entry, ServiceThread.rank, Stage.rank, List.length_nil]
      omega
    | connected => exact hnot (hself _ _) (by simp [Stage.part])
    | session acts stage hfrom hpart' => exact hnot (hself _ _) (by simp [hpart'])
    | sessionCall stage op hfrom hpart' => exact hnot (hself _ _) (by simp [hpart'])
    | drop stage hfrom hpart' =>
      refine hnot (hself _ _) ?_
      rcases hpart' with hpart' | hpart' <;> simp [hpart']
    | leave acts stage hpart' => exact hnot (hself _ _) (by simp [hpart'])

/-- **A connect costs a delay**, the first one apart. -/
theorem connects_pays {i : ι} (s : ShadeVpnService ι κ) {e : Event ι κ} (hspawn : ¬ e.Spawns i) :
    connects C os i s e + ((s.step C os e).rank i + 7) / 37 ≤ (s.rank i + 7) / 37 := by
  have hpays := changes_pays C os s hspawn
  by_cases hconnects : (s.thread i).call ≠ some .connect ∧
      ((s.step C os e).thread i).call = some .connect
  · have hone : connects C os i s e = 1 := if_pos hconnects
    obtain ⟨hbefore, hafter⟩ := hconnects
    by_cases hother : ∀ env, e ≠ .step i env
    · rw [(thread_of_other C os (s := s) hspawn hother).1] at hafter
      exact absurd hafter hbefore
    · push Not at hother
      obtain ⟨env, rfl⟩ := hother
      obtain ⟨n, hrank⟩ : ∃ n, (s.step C os (.step i env)).rank i = 29 + 37 * n :=
        rank_of_connect C os hbefore hafter
      have hchanges : changes C os i s (.step i env) = 1 := by
        refine if_pos ⟨rfl, fun hsame => hbefore ?_⟩
        rwa [show s.step C os (.step i env) = s from hsame] at hafter
      omega
  · have hnone : connects C os i s e = 0 := if_neg hconnects
    omega

/-! ## What every run keeps -/

/-- A thread that is finished is in no native call, and the session lock is with its
holder. -/
structure ShadeVpnService.Lively (s : ShadeVpnService ι κ) : Prop where
  idle : ∀ i, (s.thread i).done = true → ∃ result, s.native.thread i = .returned result
  held : s.native.Held

variable {C}

/-- A step of thread `i` outside the native layer. -/
theorem ShadeVpnService.Lively.beside {s s' : ShadeVpnService ι κ} (h : s.Lively) {i : ι}
    (hbeside : s.Beside i s')
    (hidle : (s'.thread i).done = true → ∃ result, s'.native.thread i = .returned result)
    (hheld : s'.native.Held) : s'.Lively := by
  refine ⟨fun j hj => ?_, hheld⟩
  by_cases hji : j = i
  · subst hji
    exact hidle hj
  · rw [hbeside.thread j hji] at hj
    rcases hbeside.native with hsame | ⟨op, hcall⟩
    · rw [hsame]
      exact h.idle j hj
    · rw [hcall]
      show ∃ result, Function.update s.native.thread i op.entry j = .returned result
      rw [Function.update_of_ne hji]
      exact h.idle j hj

/-- A step that makes a call, or none, where the last call has returned. -/
theorem ShadeVpnService.Lively.held_beside {s s' : ShadeVpnService ι κ} (h : s.Lively) {i : ι}
    (hbeside : s.Beside i s') {result : Except SessionError Unit}
    (back : s.native.thread i = .returned result) : s'.native.Held := by
  rcases hbeside.native with hsame | ⟨op, hcall⟩
  · rw [hsame]
    exact h.held
  · rw [hcall]
    exact h.held.kept (by rw [back]; exact id) rfl rfl

/-- A new command: its thread has no native call yet. -/
theorem ShadeVpnService.Lively.command {s : ShadeVpnService ι κ} (h : s.Lively) {i : ι}
    {u : ServiceThread} (hgoing : u.done = false) (connectGeneration : ℕ) (stopping : Option ι) :
    ShadeVpnService.Lively { s.goto i u with connectGeneration, stopping } := by
  refine ⟨fun j hj => ?_, h.held⟩
  by_cases hji : j = i
  · subst hji
    have hdone : (Function.update s.thread j u j).done = true := hj
    rw [Function.update_self, hgoing] at hdone
    cases hdone
  · have hdone : (Function.update s.thread i u j).done = true := hj
    rw [Function.update_of_ne hji] at hdone
    exact h.idle j hdone

/-- **A step keeps the service lively.** -/
theorem ShadeVpnService.Lively.step {s : ShadeVpnService ι κ} (h : s.Lively) (e : Event ι κ) :
    (s.step C os e).Lively := by
  cases e with
  | start i rawProfile blockIpv6 =>
    unfold ShadeVpnService.step
    dsimp only
    split_ifs
    · exact h.command rfl _ _
    · exact h
  | stop i =>
    unfold ShadeVpnService.step
    dsimp only
    split_ifs
    · exact h.command rfl _ _
    · exact h
  | turn e => exact ⟨h.idle, h.held⟩
  | step i env =>
    have hself (s' : ShadeVpnService ι κ) (u : ServiceThread) : (s'.goto i u).thread i = u :=
      Function.update_self ..
    have hgoes {s' : ShadeVpnService ι κ} {u : ServiceThread} (hthread : s'.thread i = u)
        (hgoing : u.done = false) : ¬ (s'.thread i).done = true := by
      rw [hthread, hgoing]
      exact Bool.false_ne_true
    have hmove : ShadeVpnService.Moves C s i (s.threadStep C os i env) := s.threadStep_moves i env
    show (s.threadStep C os i env).Lively
    generalize s.threadStep C os i env = s' at hmove
    cases hmove with
    | finished => exact h
    | native busy =>
      have hnative := s.native.step_moves (C := C) i
      refine ⟨fun j hj => ?_, h.held.step hnative⟩
      have hji : j ≠ i := by
        rintro rfl
        obtain ⟨result, hresult⟩ := h.idle j hj
        exact busy result hresult
      show ∃ result, (s.native.step C i).thread j = .returned result
      rw [hnative.thread, Function.update_of_ne hji]
      exact h.idle j hj
    | writes here act acts =>
      refine h.beside (s.beside_perform i _ act)
        (fun hdone => absurd hdone (hgoes (hself _ _) rfl)) ?_
      show (s.perform act).native.Held
      rw [perform_native]
      exact h.held
    | stopWrites here act acts =>
      refine h.beside (s.beside_perform i _ act)
        (fun hdone => absurd hdone (hgoes (hself _ _) rfl)) ?_
      show (s.perform act).native.Held
      rw [perform_native]
      exact h.held
    | @connect t here ready result back _ hcont =>
      refine h.beside hcont.beside (fun hdone => ?_) (h.held_beside hcont.beside back)
      cases hcont with
      | finish => exact ⟨result, back⟩
      | wait => exact absurd hdone (hgoes here rfl)
      | _ => exact absurd hdone (hgoes (hself _ _) rfl)
    | @disconnect t here ready result back =>
      refine h.beside (s.disconnectStep_beside i t) (fun hdone => ?_)
        (h.held_beside (s.disconnectStep_beside i t) back)
      unfold ShadeVpnService.disconnectStep at hdone ⊢
      dsimp only at hdone ⊢
      cases hat : t.stage with
      | ended => exact ⟨result, back⟩
      | closing tun =>
        rw [hat] at hdone
        cases tun <;> exact absurd hdone (hgoes (hself _ _) rfl)
      | _ =>
        rw [hat] at hdone
        exact absurd hdone (hgoes (hself _ _) rfl)

omit [DecidableEq ι] in
theorem lively_new (nativeVersion : String) :
    (ShadeVpnService.new nativeVersion : ShadeVpnService ι κ).Lively :=
  ⟨fun _ _ => ⟨_, rfl⟩, by rintro i ⟨⟩⟩

variable (C)

theorem lively (nativeVersion : String) (es : List (Event ι κ)) :
    (Machine.run (ShadeVpnService.step C os) (.new nativeVersion) es).Lively :=
  Machine.run_inv (fun _ e hs => hs.step os e) es (lively_new nativeVersion)

/-! ## The bounds -/

variable {i : ι} {fs : List (Event ι κ)}

theorem changes_le (hfs : ∀ e ∈ fs, ¬ e.Spawns i) (s : ShadeVpnService ι κ) :
    Machine.spent (ShadeVpnService.step C os) (changes C os i) s fs ≤ s.rank i := by
  have hpay : ∀ s : ShadeVpnService ι κ, ∀ e ∈ fs,
      changes C os i s e + (s.step C os e).rank i ≤ s.rank i :=
    fun s e he => changes_pays C os s (hfs e he)
  exact Machine.spent_le (·.rank i) hpay s

theorem connects_le (hfs : ∀ e ∈ fs, ¬ e.Spawns i) (s : ShadeVpnService ι κ) :
    Machine.spent (ShadeVpnService.step C os) (connects C os i) s fs ≤ (s.rank i + 7) / 37 := by
  have hpay : ∀ s : ShadeVpnService ι κ, ∀ e ∈ fs,
      connects C os i s e + ((s.step C os e).rank i + 7) / 37 ≤ (s.rank i + 7) / 37 :=
    fun s e he => connects_pays C os s (hfs e he)
  exact Machine.spent_le (fun s => (s.rank i + 7) / 37) hpay s

/-- A START has five delays ahead of it. -/
theorem rank_start {s : ShadeVpnService ι κ} (h : s.Lively) (hdone : (s.thread i).done = true)
    (rawProfile : Option String) (blockIpv6 : Bool) :
    (s.step C os (.start i rawProfile blockIpv6)).rank i = 229 := by
  obtain ⟨result, back⟩ := h.idle i hdone
  have hleft : BackoffPolicy.left {} = 5 := rfl
  unfold ShadeVpnService.step
  dsimp only
  rw [if_pos hdone]
  show nativeRank (s.native.thread i) + (Function.update s.thread i _ i).rank = 229
  rw [back, Function.update_self]
  simp [nativeRank, ServiceThread.rank, Stage.rank, hleft]

theorem rank_stop {s : ShadeVpnService ι κ} (h : s.Lively) (hdone : (s.thread i).done = true) :
    (s.step C os (.stop i)).rank i = 10 := by
  obtain ⟨result, back⟩ := h.idle i hdone
  unfold ShadeVpnService.step
  dsimp only
  rw [if_pos hdone]
  show nativeRank (s.native.thread i) + (Function.update s.thread i _ i).rank = 10
  rw [back, Function.update_self]
  rfl

/-- **Every thread ends.**  Behind its START a connect thread changes something in at most
229 steps and calls `nativeConnectTunnel` at most six times, behind its STOP a disconnect
thread changes something in at most ten, whatever the other threads do. -/
theorem thread_ends (nativeVersion : String) (es : List (Event ι κ))
    (hdone :
      ((Machine.run (ShadeVpnService.step C os) (.new nativeVersion) es).thread i).done = true)
    (hfs : ∀ e ∈ fs, ¬ e.Spawns i) :
    (∀ rawProfile blockIpv6,
      Machine.spent (ShadeVpnService.step C os) (changes C os i)
          (Machine.run (ShadeVpnService.step C os) (.new nativeVersion)
            (es ++ [.start i rawProfile blockIpv6])) fs ≤ 229 ∧
        Machine.spent (ShadeVpnService.step C os) (connects C os i)
          (Machine.run (ShadeVpnService.step C os) (.new nativeVersion)
            (es ++ [.start i rawProfile blockIpv6])) fs ≤ 6) ∧
      Machine.spent (ShadeVpnService.step C os) (changes C os i)
          (Machine.run (ShadeVpnService.step C os) (.new nativeVersion)
            (es ++ [.stop i])) fs ≤ 10 := by
  have hlively := lively C os nativeVersion es
  constructor
  · intro rawProfile blockIpv6
    rw [Machine.run_append, Machine.run_cons, Machine.run_nil]
    have hrank := rank_start C os hlively hdone rawProfile blockIpv6
    constructor
    · calc _ ≤ _ := changes_le C os hfs _
        _ = 229 := hrank
    · calc _ ≤ _ := connects_le C os hfs _
        _ = 6 := by rw [hrank]
  · rw [Machine.run_append, Machine.run_cons, Machine.run_nil]
    calc _ ≤ _ := changes_le C os hfs _
      _ = 10 := rank_stop C os hlively hdone

/-- What a START meets whose server is not to be reached. -/
def unreachedEnv : Env UInt8 :=
  { sampleEnv with connect := .runs ⟨sampleRequest, .error "connection refused"⟩ }

/-- A START whose pump runs. -/
def startedRun : List (Event Bool UInt8) :=
  .start false (some "vless://sample") false :: Event.steps false sampleEnv 41

/-- The next one connects six times and gives up. -/
theorem thread_ends_unreached :
    Machine.spent (ShadeVpnService.step Crypto.toy samplePlatform)
        (connects Crypto.toy samplePlatform false)
        (Machine.run (ShadeVpnService.step Crypto.toy samplePlatform)
          (.new "shadevpn-native/0.7.0")
          (startedRun ++ [.start false (some "vless://sample") true]))
        (Event.steps false unreachedEnv 128) ≤ 6 ∧
      Machine.spent (ShadeVpnService.step Crypto.toy samplePlatform)
        (connects Crypto.toy samplePlatform false)
        (Machine.run (ShadeVpnService.step Crypto.toy samplePlatform)
          (.new "shadevpn-native/0.7.0")
          (startedRun ++ [.start false (some "vless://sample") true]))
        (Event.steps false unreachedEnv 128) = 6 := by
  have hfs : ∀ e ∈ Event.steps false unreachedEnv 128, ¬ e.Spawns false := by
    intro e he
    rw [List.eq_of_mem_replicate he]
    exact id
  refine ⟨((thread_ends Crypto.toy samplePlatform "shadevpn-native/0.7.0" startedRun ?_ hfs).1
    (some "vless://sample") true).2, ?_⟩
  · decide +kernel
  · decide +kernel

/-- **No thread is stuck.**  A step of a thread that is not finished changes something, once
it has slept, or else it waits for the session lock, and a step of the lock's holder does. -/
theorem thread_progresses (nativeVersion : String) (es : List (Event ι κ))
    (hgoing :
      ((Machine.run (ShadeVpnService.step C os) (.new nativeVersion) es).thread i).done = false)
    (env : Env κ) (hslept : env.slept = true) :
    changes C os i (Machine.run (ShadeVpnService.step C os) (.new nativeVersion) es)
        (.step i env) = 1 ∨
      (Machine.run (ShadeVpnService.step C os) (.new nativeVersion) es).Waits i ∧
      ∃ j, (Machine.run (ShadeVpnService.step C os) (.new nativeVersion) es).native.lock = some j ∧
        j ≠ i ∧ ∀ env, changes C os j
          (Machine.run (ShadeVpnService.step C os) (.new nativeVersion) es) (.step j env) = 1 := by
  have hlively := lively C os nativeVersion es
  generalize Machine.run (ShadeVpnService.step C os) (.new nativeVersion) es = s at hgoing hlively ⊢
  have hchanges (j : ι) (env : Env κ) (hlow : (s.threadStep C os j env).rank j < s.rank j) :
      changes C os j s (.step j env) = 1 := by
    refine if_pos ⟨rfl, fun hsame => ?_⟩
    rw [hsame] at hlow
    exact hlow.false
  rcases rank_threadStep C os s i env with hlow | ⟨-, hdone | hawake | hwaits⟩
  · exact .inl (hchanges i env hlow)
  · simp [hdone, ServiceThread.done] at hgoing
  · simp [hslept] at hawake
  · obtain ⟨j, hj⟩ := Option.isSome_iff_exists.1 hwaits.1
    have hholds := hlively.held j hj
    refine .inr ⟨hwaits, j, hj, ?_, fun env => hchanges j env ?_⟩
    · rintro rfl
      exact hwaits.2.1 hholds
    · exact rank_threadStep_of_holds C os s j env hholds

/-- A START that is to drop its session waits for a STOP that holds the lock. -/
def waitingRun : List (Event Bool UInt8) :=
  .start false (some "vless://sample") false :: Event.steps false unreachedEnv 18 ++
    .stop true :: Event.steps true {} 2

theorem thread_progresses_waiting :
    changes Crypto.toy samplePlatform false
        (Machine.run (ShadeVpnService.step Crypto.toy samplePlatform)
          (.new "shadevpn-native/0.7.0") waitingRun) (.step false unreachedEnv) = 1 ∨
      (Machine.run (ShadeVpnService.step Crypto.toy samplePlatform)
        (.new "shadevpn-native/0.7.0") waitingRun).Waits false ∧
      ∃ j, (Machine.run (ShadeVpnService.step Crypto.toy samplePlatform)
          (.new "shadevpn-native/0.7.0") waitingRun).native.lock = some j ∧
        j ≠ false ∧ ∀ env, changes Crypto.toy samplePlatform j
          (Machine.run (ShadeVpnService.step Crypto.toy samplePlatform)
            (.new "shadevpn-native/0.7.0") waitingRun) (.step j env) = 1 :=
  thread_progresses Crypto.toy samplePlatform _ waitingRun (by decide +kernel) unreachedEnv rfl

end ShadeVpn.Service
