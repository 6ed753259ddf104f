import ShadeVpn.Service.OneThread
import ShadeVpn.Service.ThreadsEnd

/-!
# One command at a time

`onStartCommand`, `startTunnel` and `stopTunnel` of `ShadeVpnService.kt` as programs in a row:
a command whose thread is done before the next one comes.  No newer command supersedes an
attempt, and a sleep takes its time.

* `serial_refines` — the service with all its threads, run one command at a time, is where
  these programs are.
-/

namespace ShadeVpn.Service

open Octets Checked Handshake Transport Pump Native Json Profile

variable {ι κ : Type} [DecidableEq ι]

/-! ## The programs -/

/-- What the connect thread of a START meets: what its profile parses to, whether its own
UID is excluded, the TUN, and for every attempt the calls and the draw behind it. -/
structure StartCalls (κ : Type) where
  parsed : Except String VlessProfile
  excluded : Bool
  established : Option Int32
  attempts : ℕ → AttemptCalls κ
  draws : ℕ → Int64 → Int64

/-- The orchestrator over the native session, and the TUNs of the service. -/
structure SerialService (κ : Type) where
  app : App κ
  connectGeneration : ℕ
  tunInterface : Option ℕ
  tuns : List Tun

/-- A command, or a turn of a pump thread. -/
inductive Command (κ : Type) where
  | start (rawProfile : Option String) (blockIpv6 : Bool) (calls : StartCalls κ)
  | stop
  | turn (e : TunRead ⊕ SocketRead)

variable (C : Crypto κ UInt8) (os : Platform) (text : Value → String)

/-- The loop of `startTunnel`, from one attempt on. -/
def App.connectLoop (blockIpv6 : Bool) (calls : StartCalls κ) (attempt : ℕ)
    (backoff : BackoffPolicy) (a : App κ) : App κ :=
  if a.snapshot.tunEstablished then
    let done := a.attemptConnect C os text blockIpv6 ((calls.attempts attempt).alone false)
    if done.terminal then done.app
    else
      match _h : backoff.nextDelayMs (calls.draws attempt) with
      | none => done.app.mutate .reportRetryExhausted
      | some (delay, next) =>
        App.connectLoop blockIpv6 calls (attempt + 1) next
          ((done.app.mutate (.reportRetryDelay next.attempt delay)).beginRetry (next.attempt + 1))
  else a
termination_by backoff.left
decreasing_by
  have := BackoffPolicy.left_nextDelayMs _h
  omega

/-- `startTunnel` from the descriptor of the TUN on. -/
def App.tunnelOn (a : App κ) (blockIpv6 : Bool) (calls : StartCalls κ) (fd : Int32) : App κ :=
  let a := a.mutate (.establishTun fd)
  if fd < 0 then a else a.connectLoop C os text blockIpv6 calls 0 {}

namespace SerialService

def mutate (p : SerialService κ) (block : ConnectionSnapshot → ConnectionSnapshot) :
    SerialService κ :=
  { p with app := p.app.mutate block }

/-- `establish`, and the store of the new TUN. -/
def establish (p : SerialService κ) : Option Int32 → SerialService κ
  | none => { p with tunInterface := none }
  | some fd =>
    { p with
      tuns := p.tuns ++ [⟨fd, p.connectGeneration, true⟩]
      tunInterface := some p.tuns.length }

/-- `startTunnel`. -/
def startTunnel (p : SerialService κ) (rawProfile : Option String) (blockIpv6 : Bool)
    (calls : StartCalls κ) : SerialService κ :=
  match rawProfile with
  | none => p.mutate (.fail .invalidProfile "No profile supplied to service")
  | some rawProfile =>
    if isBlank rawProfile then p.mutate (.fail .invalidProfile "No profile supplied to service")
    else
      let p := p.mutate (.onPermissionResult true)
      match calls.parsed with
      | .error message => { p with app := p.app.loadProfile (.error message) }
      | .ok profile =>
        let p := { p with app := p.app.loadProfile (.ok profile) }
        if calls.excluded then
          { p.establish calls.established with
            app := p.app.tunnelOn C os text blockIpv6 calls (calls.established.getD (-1)) }
        else p.mutate (.fail .tunSetupFailed "Could not exclude own UID from TUN")

/-- `stopTunnel`. -/
def stopTunnel (p : SerialService κ) : SerialService κ where
  app := p.app.disconnect true
  connectGeneration := p.connectGeneration
  tunInterface := none
  tuns :=
    match p.tunInterface with
    | none => p.tuns
    | some tun => p.tuns.modify tun fun t => { t with isOpen := false }

/-- `onStartCommand` with what its thread does, or a turn of a pump thread. -/
def step (p : SerialService κ) : Command κ → SerialService κ
  | .start rawProfile blockIpv6 calls =>
    { p with connectGeneration := p.connectGeneration + 1 }.startTunnel C os text rawProfile
      blockIpv6 calls
  | .stop => { p with connectGeneration := p.connectGeneration + 1 }.stopTunnel
  | .turn (.inl e) => { p with app := p.app.step C os (.outbound e) }
  | .turn (.inr e) => { p with app := p.app.step C os (.inbound e) }

/-- A new service in a new process. -/
def new (nativeVersion : String) : SerialService κ := ⟨.new nativeVersion, 0, none, []⟩

end SerialService

/-! ## Runs of a thread alone -/

/-- Thread `i` alone comes from `s` to a state with `P`, whatever its steps meet. -/
def ShadeVpnService.Gets (s : ShadeVpnService ι κ) (i : ι) (P : ShadeVpnService ι κ → Prop) :
    Prop :=
  ∃ envs : List (Env κ),
    P (Machine.run (ShadeVpnService.step C os) s (envs.map (Event.step i)))

/-- Thread `i` is finished, and the orchestrator is as `a` has it; the rest is as `s₀` has it. -/
structure Left (s₀ : ShadeVpnService ι κ) (i : ι) (a : App κ) (s : ShadeVpnService ι κ) : Prop where
  thread : s.thread = Function.update s₀.thread i .finished
  calm : s.native.Calm
  pending : s.pendingServerResponseB64 = a.pendingServerResponseB64
  snapshot : s.snapshot = a.snapshot
  session : s.native.current = a.session
  generation : s.connectGeneration = s₀.connectGeneration
  tunInterface : s.tunInterface = s₀.tunInterface
  tuns : s.tuns = s₀.tuns

variable {C os text} {s₀ s s' : ShadeVpnService ι κ} {i : ι} {env : Env κ} {t t' : ConnectThread}
  {a : App κ} {result : Except SessionError Unit} {P Q : ShadeVpnService ι κ → Prop}

theorem ShadeVpnService.Reaches.gets (h : s.Reaches C os i env Q)
    (hnext : ∀ s', Q s' → s'.Gets C os i P) : s.Gets C os i P := by
  obtain ⟨n, hn⟩ := h
  obtain ⟨envs, henvs⟩ := hnext _ hn
  refine ⟨List.replicate n env ++ envs, ?_⟩
  rw [List.map_append, List.map_replicate, Machine.run_append]
  exact henvs

theorem ShadeVpnService.Gets.here (h : P s) : s.Gets C os i P := ⟨[], h⟩

/-- A thread that has come to its end. -/
theorem Stands.left (h : Stands s₀ i (t.at .ended) a result s) :
    s.Gets C os i (Left s₀ i a) := by
  refine ⟨[{}], ?_⟩
  have hstep : s.threadStep C os i {} = s.goto i .finished := h.threadStep rfl
  show Left s₀ i a (s.threadStep C os i {})
  rw [hstep]
  refine ⟨?_, h.calm, h.pending, h.snapshot, h.session, h.generation, h.tunInterface, h.tuns⟩
  show Function.update s.thread i .finished = _
  rw [h.thread, Function.update_idem]

/-! ## The loop -/

/-- Nothing supersedes the thread. -/
theorem Stands.current (h : Stands s₀ i t a result s)
    (hcurrent : s₀.superseded t.generation = false) : s.superseded t.generation = false := by
  unfold ShadeVpnService.superseded at *
  rwa [h.generation]

/-- A delay, and the next attempt behind it. -/
theorem Stands.retries (h : Stands s₀ i (t.at .retry) a result s)
    (hcurrent : s₀.superseded t.generation = false) {draw : Int64 → Int64} {delay : Int64}
    {next : BackoffPolicy} (hnext : t.backoff.nextDelayMs draw = some (delay, next)) :
    s.Reaches C os i { draw } (Stands s₀ i ({ t with backoff := next }.at .looping)
      ((a.mutate (.reportRetryDelay next.attempt delay)).beginRetry (next.attempt + 1))
      result) := by
  have hretry : s.connectStep os i (t.at .retry) { draw } result = s.goto i (.connect { t with
      backoff := next
      acts := [.mutate (.reportRetryDelay next.attempt delay)]
      stage := .sleeping }) := by
    rw [ShadeVpnService.connectStep.eq_def]
    dsimp only
    rw [h.current hcurrent, hnext]
    rfl
  refine h.goes rfl _ hretry fun s₁ h₁ => ?_
  refine h₁.goes rfl ({ t with backoff := next }.at .waking) rfl fun s₂ h₂ => ?_
  replace h₂ : Stands s₀ i ({ t with backoff := next }.at .waking)
      (a.mutate (.reportRetryDelay next.attempt delay)) result s₂ := h₂
  have hwaking : s₂.connectStep os i ({ t with backoff := next }.at .waking) { draw } result
      = s₂.goto i (.connect { t with
          backoff := next
          acts := [.setPending none, .mutate (.beginRetry (next.attempt + 1))]
          stage := .looping }) := by
    rw [ShadeVpnService.connectStep.eq_def]
    dsimp only
    rw [h₂.current hcurrent]
    rfl
  exact h₂.goes rfl _ hwaking fun s₃ h₃ => .here h₃

/-- No delay is left. -/
theorem Stands.exhausts (h : Stands s₀ i (t.at .retry) a result s)
    (hcurrent : s₀.superseded t.generation = false) {draw : Int64 → Int64}
    (hspent : t.backoff.nextDelayMs draw = none) :
    s.Reaches C os i { draw }
      (Stands s₀ i (t.at .ended) (a.mutate .reportRetryExhausted) result) := by
  have hretry : s.connectStep os i (t.at .retry) { draw } result = s.goto i (.connect { t with
      acts := [.mutate .reportRetryExhausted]
      stage := .ended }) := by
    rw [ShadeVpnService.connectStep.eq_def]
    dsimp only
    rw [h.current hcurrent, hspent]
    rfl
  exact h.goes rfl _ hretry fun s₁ h₁ => .here h₁

/-- The TUN is not there. -/
theorem Stands.down (h : Stands s₀ i (t.at .looping) a result s)
    (hdown : ¬ a.snapshot.tunEstablished = true) :
    s.Reaches C os i {} (Stands s₀ i (t.at .ended) a result) := by
  have hlooping : s.connectStep os i (t.at .looping) {} result
      = s.goto i (.connect (t.at .ended)) := by
    refine if_neg ?_
    rw [h.snapshot]
    exact hdown
  exact h.goes rfl _ hlooping fun s₁ h₁ => .here h₁

variable (text) in
/-- An attempt that nothing supersedes. -/
theorem Stands.attempts (h : Stands s₀ i (t.at .looping) a result s)
    (hup : a.snapshot.tunEstablished = true) (hcurrent : s₀.superseded t.generation = false)
    {blockIpv6 : Bool} (hblock : t.blockIpv6 = blockIpv6) (calls : AttemptCalls κ)
    (hnext : ∀ s', Finishes s₀ i t (a.attemptConnect C os text blockIpv6 (calls.alone false)) s' →
      s'.Gets C os i P) : s.Gets C os i P := by
  have hattempt : s.Reaches C os i (calls.meets text a.snapshot.selectedProfile)
      (Finishes s₀ i t (a.attemptConnect C os text t.blockIpv6
        (calls.alone (s₀.superseded t.generation)))) := attempt_alone h hup
  rw [hcurrent, hblock] at hattempt
  exact hattempt.gets hnext

/-- **The loop of a thread alone.** -/
theorem Stands.loops {blockIpv6 : Bool} {calls : StartCalls κ} {attempt : ℕ}
    {backoff : BackoffPolicy} (h : Stands s₀ i (t.at .looping) a result s)
    (hbackoff : t.backoff = backoff) (hblock : t.blockIpv6 = blockIpv6)
    (hcurrent : s₀.superseded t.generation = false) :
    s.Gets C os i (Left s₀ i (a.connectLoop C os text blockIpv6 calls attempt backoff)) := by
  induction hleft : backoff.left using Nat.strong_induction_on
    generalizing attempt backoff a t result s with
  | _ left ih =>
  rw [App.connectLoop]
  by_cases hup : a.snapshot.tunEstablished = true
  · rw [if_pos hup]
    dsimp only
    refine h.attempts text hup hcurrent hblock (calls.attempts attempt) ?_
    rintro s₁ ⟨result₁, h₁⟩
    by_cases hterminal : (a.attemptConnect C os text blockIpv6
        ((calls.attempts attempt).alone false)).terminal = true
    · rw [if_pos hterminal] at h₁ ⊢
      exact h₁.left
    · rw [if_neg hterminal] at h₁ ⊢
      split
      · next hspent =>
        exact (h₁.exhausts hcurrent (hbackoff ▸ hspent)).gets fun s₂ h₂ => h₂.left
      · next delay next hnext =>
        refine (h₁.retries hcurrent (hbackoff ▸ hnext)).gets fun s₂ h₂ => ?_
        have hfewer := BackoffPolicy.left_nextDelayMs hnext
        exact ih next.left (by omega) h₂ rfl hblock hcurrent rfl
  · rw [if_neg hup]
    exact (h.down hup).gets fun s₁ h₁ => h₁.left

/-! ## A START -/

/-- The service is where its programs in a row are, but for its threads. -/
structure ShadeVpnService.Has (s : ShadeVpnService ι κ) (p : SerialService κ) : Prop where
  calm : s.native.Calm
  pending : s.pendingServerResponseB64 = p.app.pendingServerResponseB64
  snapshot : s.snapshot = p.app.snapshot
  session : s.native.current = p.app.session
  generation : s.connectGeneration = p.connectGeneration
  tunInterface : s.tunInterface = p.tunInterface
  tuns : s.tuns = p.tuns

/-- Thread `i` is finished, and the service is where its programs in a row are. -/
def Done (s₀ : ShadeVpnService ι κ) (i : ι) (p : SerialService κ) (s : ShadeVpnService ι κ) :
    Prop :=
  s.thread = Function.update s₀.thread i .finished ∧ s.Has p

theorem Left.done (h : Left s₀ i a s) :
    Done s₀ i ⟨a, s₀.connectGeneration, s₀.tunInterface, s₀.tuns⟩ s :=
  ⟨h.thread, h.calm, h.pending, h.snapshot, h.session, h.generation, h.tunInterface, h.tuns⟩

theorem ShadeVpnService.Gets.imp (h : s.Gets C os i Q) (himp : ∀ s', Q s' → P s') :
    s.Gets C os i P := by
  obtain ⟨envs, henvs⟩ := h
  exact ⟨envs, himp _ henvs⟩

theorem ShadeVpnService.Gets.step (env : Env κ) (hstep : s.threadStep C os i env = s')
    (h : s'.Gets C os i P) : s.Gets C os i P := by
  obtain ⟨envs, henvs⟩ := h
  rw [← hstep] at henvs
  exact ⟨env :: envs, henvs⟩

/-- A step of the service, and all it writes. -/
theorem Stands.gets (h : Stands s₀ i t a result s) (ready : t.acts = []) (env : Env κ)
    (t' : ConnectThread) (hstep : s.connectStep os i t env result = s.goto i (.connect t'))
    (hnext : ∀ s', Stands s₀ i { t' with acts := [] } (t'.acts.foldl App.perform a) result s' →
      s'.Gets C os i P) : s.Gets C os i P :=
  (h.goes ready t' hstep fun _ h' => .here h').gets hnext

/-- A connect thread alone with a descriptor loops or leaves. -/
theorem Stands.established {calls : StartCalls κ} {fd : Int32}
    (h : Stands s₀ i ({ t with fd }.at .established) a result s) (hbackoff : t.backoff = {})
    (hcurrent : s₀.superseded t.generation = false) :
    s.Gets C os i (Left s₀ i
      (if fd < 0 then a else a.connectLoop C os text t.blockIpv6 calls 0 {})) := by
  have hstep := ShadeVpnService.connectStep.eq_def os s i ({ t with fd }.at .established) {} result
  dsimp only at hstep
  by_cases hfd : fd < 0
  · rw [if_pos hfd] at hstep ⊢
    exact h.gets rfl {} ({ t with fd }.at .ended) hstep fun s₁ h₁ => h₁.left
  · rw [if_neg hfd] at hstep ⊢
    refine h.gets rfl {} ({ t with fd }.at .looping) hstep fun s₁ h₁ => ?_
    replace h₁ : Stands s₀ i ({ t with fd }.at .looping) a result s₁ := h₁
    exact h₁.loops hbackoff rfl hcurrent

/-- The descriptor a connect thread alone finds is the one of the TUN that is there. -/
theorem Stands.fetches {calls : StartCalls κ} {fd : Int32}
    (h : Stands s₀ i (t.at .fetching) a result s)
    (hfd : s₀.tunInterface = none ∧ fd = -1 ∨
      ∃ tun generation, s₀.tunInterface = some tun ∧ s₀.tuns[tun]? = some ⟨fd, generation, true⟩)
    (hbackoff : t.backoff = {}) (hcurrent : s₀.superseded t.generation = false) :
    s.Gets C os i (Left s₀ i (a.tunnelOn C os text t.blockIpv6 calls fd)) := by
  have hfetching : s.connectStep os i (t.at .fetching) {} result
      = s.goto i (.connect (t.at (.fetched s₀.tunInterface))) := by
    rw [← h.tunInterface]
    rfl
  refine h.gets rfl {} _ hfetching fun s₁ h₁ => ?_
  replace h₁ : Stands s₀ i (t.at (.fetched s₀.tunInterface)) a result s₁ := h₁
  have hfetched : s₁.connectStep os i (t.at (.fetched s₀.tunInterface)) {} result
      = s₁.goto i (.connect { t with
          fd
          acts := [.mutate (.establishTun fd)]
          stage := .established }) := by
    rcases hfd with ⟨hnone, rfl⟩ | ⟨tun, generation, hsome, htun⟩
    · rw [hnone]
      rfl
    · rw [hsome, ShadeVpnService.connectStep.eq_def]
      dsimp only
      rw [h₁.tuns, htun]
  refine h₁.gets rfl {} _ hfetched fun s₂ h₂ => ?_
  replace h₂ : Stands s₀ i ({ t with fd }.at .established) (a.mutate (.establishTun fd)) result s₂ :=
    h₂
  exact h₂.established hbackoff hcurrent

variable (text) in
/-- The TUN of a connect thread alone is the one it goes on with. -/
theorem Stands.establishes (calls : StartCalls κ) {p : SerialService κ}
    (h : Stands s₀ i (t.at .establishing) p.app result s) (hbackoff : t.backoff = {})
    (hcurrent : s₀.superseded t.generation = false)
    (hgeneration : t.generation = p.connectGeneration)
    (hlast : s₀.connectGeneration = p.connectGeneration) (htuns : s₀.tuns = p.tuns) :
    s.Gets C os i (Done s₀ i { p.establish calls.established with
      app := p.app.tunnelOn C os text t.blockIpv6 calls (calls.established.getD (-1)) }) := by
  have hready : s.threadStep C os i { established := calls.established }
      = s.connectStep os i (t.at .establishing) { established := calls.established } result :=
    h.threadStep rfl
  have hstep := hready.trans (ShadeVpnService.connectStep.eq_def ..)
  dsimp only at hstep
  refine .step _ hstep ?_
  rcases hestablished : calls.established with _ | fd
  · -- `establish` gives no TUN
    have h₁ : Stands { s₀ with tunInterface := none } i (t.at .fetching) p.app result
        { s.goto i (.connect (t.at .fetching)) with tunInterface := none } :=
      ⟨(h.goto _).thread, h.back, h.calm, h.pending, h.snapshot, h.session, h.generation, rfl,
        h.tuns⟩
    have hleft : ShadeVpnService.Gets C os _ i (Left { s₀ with tunInterface := none } i
        (p.app.tunnelOn C os text t.blockIpv6 calls (-1))) :=
      h₁.fetches (.inl ⟨rfl, rfl⟩) hbackoff hcurrent
    refine hleft.imp fun s₂ h₂ => ?_
    have hdone := h₂.done
    dsimp only at hdone
    rw [hlast, htuns] at hdone
    exact hdone
  · have h₁ : Stands { s₀ with
          tuns := s₀.tuns ++ [⟨fd, t.generation, true⟩]
          tunInterface := some s₀.tuns.length } i (t.at .fetching) p.app result
        { s.goto i (.connect (t.at .fetching)) with
          tuns := s.tuns ++ [⟨fd, t.generation, true⟩]
          tunInterface := some s.tuns.length } := by
      refine ⟨(h.goto _).thread, h.back, h.calm, h.pending, h.snapshot, h.session, h.generation,
        ?_, ?_⟩
      · rw [h.tuns]
      · rw [h.tuns]
    have hleft : ShadeVpnService.Gets C os _ i (Left { s₀ with
          tuns := s₀.tuns ++ [⟨fd, t.generation, true⟩]
          tunInterface := some s₀.tuns.length } i
        (p.app.tunnelOn C os text t.blockIpv6 calls fd)) :=
      h₁.fetches (.inr ⟨s₀.tuns.length, t.generation, rfl, List.getElem?_concat_length⟩) hbackoff
        hcurrent
    refine hleft.imp fun s₂ h₂ => ?_
    have hdone := h₂.done
    dsimp only at hdone
    rw [hlast, htuns, hgeneration] at hdone
    exact hdone

variable (text) in
/-- **`startTunnel` of a thread alone.** -/
theorem Stands.starts (calls : StartCalls κ) {p : SerialService κ} {rawProfile : Option String}
    (h : Stands s₀ i (t.at (.entered rawProfile)) p.app result s) (hbackoff : t.backoff = {})
    (hcurrent : s₀.superseded t.generation = false)
    (hgeneration : t.generation = p.connectGeneration)
    (hlast : s₀.connectGeneration = p.connectGeneration) (htun : s₀.tunInterface = p.tunInterface)
    (htuns : s₀.tuns = p.tuns) :
    s.Gets C os i (Done s₀ i (p.startTunnel C os text rawProfile t.blockIpv6 calls)) := by
  have hleave {b : App κ} {result : Except SessionError Unit} {s : ShadeVpnService ι κ}
      (hended : Stands s₀ i (t.at .ended) b result s) :
      s.Gets C os i (Done s₀ i { p with app := b }) := by
    refine hended.left.imp fun s' hleft => ?_
    have hdone := hleft.done
    rwa [hlast, htun, htuns] at hdone
  let env : Env κ := { parsed := calls.parsed, excluded := calls.excluded }
  have hstep := ShadeVpnService.connectStep.eq_def os s i (t.at (.entered rawProfile)) env result
  dsimp only at hstep
  unfold SerialService.startTunnel
  rcases rawProfile with _ | rawProfile
  · exact h.gets rfl env _ hstep fun s₁ h₁ => hleave h₁
  dsimp only at hstep ⊢
  by_cases hblank : isBlank rawProfile = true
  · rw [if_pos hblank] at hstep ⊢
    exact h.gets rfl env _ hstep fun s₁ h₁ => hleave h₁
  rw [if_neg hblank] at hstep ⊢
  refine h.gets rfl env _ hstep fun s₁ h₁ => ?_
  replace h₁ : Stands s₀ i (t.at (.loading rawProfile))
      (p.app.mutate (.onPermissionResult true)) result s₁ := h₁
  have hloading :=
    ShadeVpnService.connectStep.eq_def os s₁ i (t.at (.loading rawProfile)) env result
  dsimp only at hloading
  rcases hparsed : calls.parsed with message | profile
  · rw [show env.parsed = .error message from hparsed] at hloading
    exact h₁.gets rfl env _ hloading fun s₂ h₂ => hleave h₂
  rw [show env.parsed = .ok profile from hparsed] at hloading
  refine h₁.gets rfl env _ hloading fun s₂ h₂ => ?_
  replace h₂ : Stands s₀ i (t.at .excluding)
      ((p.app.mutate (.onPermissionResult true)).loadProfile (.ok profile)) result s₂ := h₂
  have hexcluding := ShadeVpnService.connectStep.eq_def os s₂ i (t.at .excluding) env result
  dsimp only at hexcluding ⊢
  by_cases hexcluded : calls.excluded = true
  · rw [if_pos hexcluded] at hexcluding ⊢
    refine h₂.gets rfl env _ hexcluding fun s₃ h₃ => ?_
    replace h₃ : Stands s₀ i (t.at .establishing)
        ((p.app.mutate (.onPermissionResult true)).loadProfile (.ok profile)) result s₃ := h₃
    exact h₃.establishes (p := { p with
      app := (p.app.mutate (.onPermissionResult true)).loadProfile (.ok profile) }) text calls
      hbackoff hcurrent hgeneration hlast htuns
  · rw [if_neg hexcluded] at hexcluding ⊢
    exact h₂.gets rfl env _ hexcluding fun s₃ h₃ => hleave h₃

/-! ## A STOP -/

/-- What a disconnect thread does that has nothing to write. -/
theorem threadStep_disconnect {generation : ℕ} {stage : StopStage}
    (here : s.thread i = .disconnect ⟨generation, [], stage⟩)
    (back : s.native.thread i = .returned result) :
    s.threadStep C os i env = s.disconnectStep i ⟨generation, [], stage⟩ := by
  unfold ShadeVpnService.threadStep
  rw [back, here]

theorem threadStep_stopWrites {generation : ℕ} {act : Action} {acts : List Action}
    {stage : StopStage} (here : s.thread i = .disconnect ⟨generation, act :: acts, stage⟩)
    (back : s.native.thread i = .returned result) :
    s.threadStep C os i env = (s.perform act).goto i (.disconnect ⟨generation, acts, stage⟩) := by
  unfold ShadeVpnService.threadStep
  rw [back, here]

theorem thread_goto (s : ShadeVpnService ι κ) (i : ι) (u : ServiceThread) :
    (s.goto i u).thread i = u :=
  Function.update_self ..

/-- The last steps of a disconnect thread, which let go of the TUN. -/
theorem stops_clearing {generation : ℕ} {p : SerialService κ}
    (here : s.thread i = .disconnect ⟨generation, [], .clearing⟩)
    (back : s.native.thread i = .returned result) (hhas : s.Has p) :
    s.Gets C os i (Done s i { p with tunInterface := none }) := by
  refine .step {} (threadStep_disconnect here back) ?_
  refine .step {} (threadStep_disconnect (thread_goto s i _) back) ?_
  refine .here ⟨?_, hhas.calm, hhas.pending, hhas.snapshot, hhas.session, hhas.generation, rfl,
    hhas.tuns⟩
  exact Function.update_idem ..

theorem stops_closing (generation : ℕ) {p : SerialService κ}
    (here : s.thread i = .disconnect ⟨generation, [], .closing p.tunInterface⟩)
    (back : s.native.thread i = .returned result) (hhas : s.Has p) :
    s.Gets C os i (Done s i { p with
      tunInterface := none
      tuns :=
        match p.tunInterface with
        | none => p.tuns
        | some tun => p.tuns.modify tun fun t => { t with isOpen := false } }) := by
  refine .step {} (threadStep_disconnect here back) ?_
  rcases htun : p.tunInterface with _ | tun
  · let s₁ := s.goto i (.disconnect ⟨generation, [], .clearing⟩)
    have hhas₁ : s₁.Has p := ⟨hhas.calm, hhas.pending, hhas.snapshot, hhas.session,
      hhas.generation, hhas.tunInterface, hhas.tuns⟩
    have hclearing : s₁.Gets C os i (Done s₁ i _) :=
      stops_clearing (thread_goto _ i _) back hhas₁
    refine hclearing.imp fun s' hdone => ⟨?_, hdone.2⟩
    rw [hdone.1]
    exact Function.update_idem ..
  · let s₁ := (s.close tun).goto i (.disconnect ⟨generation, [], .clearing⟩)
    have hhas₁ : s₁.Has { p with
        tuns := p.tuns.modify tun fun t => { t with isOpen := false } } := by
      refine ⟨hhas.calm, hhas.pending, hhas.snapshot, hhas.session, hhas.generation,
        hhas.tunInterface, ?_⟩
      show s.tuns.modify tun _ = _
      rw [hhas.tuns]
    have hclearing : s₁.Gets C os i (Done s₁ i _) :=
      stops_clearing (thread_goto _ i _) back hhas₁
    refine hclearing.imp fun s' hdone => ⟨?_, hdone.2⟩
    rw [hdone.1]
    exact Function.update_idem ..

/-- **`stopTunnel` of a thread alone.** -/
theorem stops {generation : ℕ} {p : SerialService κ}
    (here : s.thread i = .disconnect ⟨generation, [], .disconnect⟩)
    (back : s.native.thread i = .returned result) (hhas : s.Has p) :
    s.Gets C os i (Done s i p.stopTunnel) := by
  refine .step {} (threadStep_disconnect here back) ?_
  have hcall : ShadeVpnService.Reaches C os
      ((s.goto i (.disconnect ⟨generation, [], .disconnected⟩)).call i .disconnect) i {}
      (ShadeVpnService.Gets C os · i (Done s i p.stopTunnel)) := by
    refine call_reaches (s := s.goto i _) hhas.calm back .disconnect ?_
    intro native hcalm hback hcurrent sessionOf starts
    refine .here ?_
    refine .step {} (threadStep_disconnect (thread_goto s i _) hback) ?_
    refine .step {} (threadStep_stopWrites (thread_goto _ i _) hback) ?_
    refine .step {} (threadStep_stopWrites (thread_goto _ i _) hback) ?_
    refine .step {} (threadStep_disconnect (thread_goto _ i _) hback) ?_
    refine ShadeVpnService.Gets.imp (Q := Done _ i _)
      (stops_closing generation (p := { p with app := p.app.disconnect true }) ?_ hback ?_) ?_
    · refine (thread_goto _ i _).trans ?_
      rw [← hhas.tunInterface]
      rfl
    · refine ⟨hcalm, rfl, congrArg ConnectionSnapshot.disconnected hhas.snapshot, ?_,
        hhas.generation, hhas.tunInterface, hhas.tuns⟩
      show native.current = p.app.session.teardown
      rw [hcurrent]
      exact congrArg Session.teardown hhas.session
    · rintro s' ⟨hthread, hdone⟩
      refine ⟨?_, hdone⟩
      rw [hthread]
      simp only [ShadeVpnService.disconnectStep, ShadeVpnService.goto, ShadeVpnService.perform,
        Function.update_idem]
  exact hcall.gets fun _ h => h

/-! ## Runs -/

/-- What brings a command to the service, for thread `i`. -/
def Command.event (i : ι) : Command κ → Event ι κ
  | .start rawProfile blockIpv6 _ => .start i rawProfile blockIpv6
  | .stop => .stop i
  | .turn e => .turn e

/-- The events of some commands, each with a thread that is done before the next one comes. -/
inductive Serial : List (ι × Command κ) → List (Event ι κ) → Prop
  | nil : Serial [] []
  | cons (i : ι) (command : Command κ) (envs : List (Env κ)) {commands : List (ι × Command κ)}
    {es : List (Event ι κ)} (rest : Serial commands es) :
    Serial ((i, command) :: commands) (command.event i :: (envs.map (Event.step i) ++ es))

/-- Every thread is finished, and the service is where its programs in a row are. -/
structure ShadeVpnService.Serves (s : ShadeVpnService ι κ) (p : SerialService κ) : Prop where
  lively : s.Lively
  finished : ∀ j, s.thread j = .finished
  has : s.Has p

/-- A thread that comes to its end leaves every thread finished. -/
theorem finished_of_done {p : SerialService κ} {s s₁ s' : ShadeVpnService ι κ} {u : ServiceThread}
    (hfinished : ∀ j, s.thread j = .finished) (hthread : s₁.thread = Function.update s.thread i u)
    (hdone : Done s₁ i p s') (j : ι) : s'.thread j = .finished := by
  rw [hdone.1, hthread, Function.update_idem]
  by_cases hji : j = i
  · rw [hji, Function.update_self]
  · rw [Function.update_of_ne hji]
    exact hfinished j

omit [DecidableEq ι] in
theorem not_superseded (s : ShadeVpnService ι κ) :
    s.superseded s.connectGeneration = false := by
  simp [ShadeVpnService.superseded]

variable (C os text)

theorem ShadeVpnService.Serves.start {p : SerialService κ} (h : s.Serves p) (i : ι)
    (rawProfile : Option String) (blockIpv6 : Bool) (calls : StartCalls κ) :
    ∃ envs : List (Env κ),
      (Machine.run (ShadeVpnService.step C os) s
        (.start i rawProfile blockIpv6 :: envs.map (Event.step i))).Serves
        (p.step C os text (.start rawProfile blockIpv6 calls)) := by
  obtain ⟨result, back⟩ := h.lively.idle i (by rw [h.finished i]; rfl)
  let t : ConnectThread := ⟨s.connectGeneration + 1, blockIpv6, -1, {}, [], .entered rawProfile⟩
  let p' : SerialService κ := { p with connectGeneration := p.connectGeneration + 1 }
  have hstart : s.step C os (.start i rawProfile blockIpv6) = { s.goto i (.connect t) with
      connectGeneration := s.connectGeneration + 1
      stopping := none } := if_pos (by rw [h.finished i]; rfl)
  have hlively : (s.step C os (.start i rawProfile blockIpv6)).Lively := h.lively.step os _
  simp only [Machine.run_cons, hstart] at hlively ⊢
  generalize hs₁ : ({ s.goto i (.connect t) with
    connectGeneration := s.connectGeneration + 1
    stopping := none } : ShadeVpnService ι κ) = s₁ at hlively ⊢
  have hthread : s₁.thread = Function.update s.thread i (.connect t) := by rw [← hs₁]; rfl
  have hstands : Stands s₁ i (t.at (.entered rawProfile)) p'.app result s₁ := by
    refine ⟨?_, ?_, ?_, ?_, ?_, ?_, rfl, rfl, rfl⟩
    · rw [hthread, Function.update_idem]
    all_goals rw [← hs₁]
    · exact back
    · exact h.has.calm
    · exact h.has.pending
    · exact h.has.snapshot
    · exact h.has.session
  have hlast : s₁.connectGeneration = p'.connectGeneration := by
    rw [← hs₁]
    exact congrArg (· + 1) h.has.generation
  have hgeneration : t.generation = s₁.connectGeneration := by rw [← hs₁]
  have hcurrent : s₁.superseded t.generation = false := by
    rw [hgeneration]
    exact not_superseded s₁
  have htun : s₁.tunInterface = p'.tunInterface := by rw [← hs₁]; exact h.has.tunInterface
  have htuns : s₁.tuns = p'.tuns := by rw [← hs₁]; exact h.has.tuns
  have hgets : s₁.Gets C os i (Done s₁ i (p'.startTunnel C os text rawProfile blockIpv6 calls)) :=
    hstands.starts text calls rfl hcurrent (hgeneration.trans hlast) hlast htun htuns
  obtain ⟨envs, hdone⟩ := hgets
  exact ⟨envs, Machine.run_inv (fun _ e hs => hs.step os e) _ hlively,
    finished_of_done h.finished hthread hdone, hdone.2⟩

theorem ShadeVpnService.Serves.stop {p : SerialService κ} (h : s.Serves p) (i : ι) :
    ∃ envs : List (Env κ),
      (Machine.run (ShadeVpnService.step C os) s (.stop i :: envs.map (Event.step i))).Serves
        (p.step C os text .stop) := by
  obtain ⟨result, back⟩ := h.lively.idle i (by rw [h.finished i]; rfl)
  let p' : SerialService κ := { p with connectGeneration := p.connectGeneration + 1 }
  let thread : ServiceThread := .disconnect ⟨s.connectGeneration + 1, [], .disconnect⟩
  have hstop : s.step C os (.stop i) = { s.goto i thread with
      connectGeneration := s.connectGeneration + 1
      stopping := some i } := if_pos (by rw [h.finished i]; rfl)
  have hlively : (s.step C os (.stop i)).Lively := h.lively.step os _
  simp only [Machine.run_cons, hstop] at hlively ⊢
  generalize hs₁ : ({ s.goto i thread with
    connectGeneration := s.connectGeneration + 1
    stopping := some i } : ShadeVpnService ι κ) = s₁ at hlively ⊢
  have hthread : s₁.thread = Function.update s.thread i thread := by rw [← hs₁]; rfl
  have here : s₁.thread i = thread := by rw [hthread, Function.update_self]
  have hback : s₁.native.thread i = .returned result := by rw [← hs₁]; exact back
  have hhas : s₁.Has p' := by
    rw [← hs₁]
    exact ⟨h.has.calm, h.has.pending, h.has.snapshot, h.has.session,
      congrArg (· + 1) h.has.generation, h.has.tunInterface, h.has.tuns⟩
  have hgets : s₁.Gets C os i (Done s₁ i p'.stopTunnel) := stops here hback hhas
  obtain ⟨envs, hdone⟩ := hgets
  exact ⟨envs, Machine.run_inv (fun _ e hs => hs.step os e) _ hlively,
    finished_of_done h.finished hthread hdone, hdone.2⟩

omit [DecidableEq ι] in
/-- A turn of a pump thread leaves the native layer calm. -/
theorem calm_after {native : Shared ι κ} (h : native.Calm) {o : Outcome κ} {pump : TunnelPump κ}
    (hpump : o.session = { native.current with pump }) (hnow : o.now native.cells = o)
    (hsound : o.session.Sound) :
    (native.after o).Calm ∧ (native.after o).current = o.session := by
  have hcurrent : (native.after o).current = o.session := congrArg Outcome.session hnow
  refine ⟨⟨h.lock, h.known.after hpump rfl rfl, ?_⟩, hcurrent⟩
  rw [hcurrent]
  exact hsound

theorem ShadeVpnService.Serves.turn {p : SerialService κ} (h : s.Serves p)
    (e : TunRead ⊕ SocketRead) :
    (s.step C os (.turn e)).Serves (p.step C os text (.turn e)) := by
  have hlively : (s.step C os (.turn e)).Lively := h.lively.step os _
  have hsound := h.has.calm.sound
  rcases e with e | e
  · obtain ⟨pump, hpump, -⟩ := outboundTurn_pump (C := C) s.native.current e
    obtain ⟨hcalm, hcurrent⟩ := calm_after h.has.calm hpump
      (outboundTurn_now s.native.cells s.native.session e) (hsound.step (C := C) (.outbound e))
    refine ⟨hlively, h.finished, hcalm, h.has.pending, h.has.snapshot, hcurrent.trans ?_,
      h.has.generation, h.has.tunInterface, h.has.tuns⟩
    rw [h.has.session]
    rfl
  · obtain ⟨pump, hpump, -⟩ := inboundTurn_pump (C := C) s.native.current e
    obtain ⟨hcalm, hcurrent⟩ := calm_after h.has.calm hpump
      (inboundTurn_now s.native.cells s.native.session e) (hsound.step (C := C) (.inbound e))
    refine ⟨hlively, h.finished, hcalm, h.has.pending, h.has.snapshot, hcurrent.trans ?_,
      h.has.generation, h.has.tunInterface, h.has.tuns⟩
    rw [h.has.session]
    rfl

omit [DecidableEq ι] in
theorem serves_new (nativeVersion : String) :
    (ShadeVpnService.new nativeVersion : ShadeVpnService ι κ).Serves (.new nativeVersion) :=
  ⟨lively_new nativeVersion, fun _ => rfl, calm_new, rfl, rfl, rfl, rfl, rfl, rfl⟩

/-- **A command** and all its thread does. -/
theorem ShadeVpnService.Serves.command {p : SerialService κ} (h : s.Serves p) (i : ι)
    (command : Command κ) :
    ∃ envs : List (Env κ),
      (Machine.run (ShadeVpnService.step C os) s
        (command.event i :: envs.map (Event.step i))).Serves (p.step C os text command) := by
  cases command with
  | start rawProfile blockIpv6 calls => exact h.start C os text i rawProfile blockIpv6 calls
  | stop => exact h.stop C os text i
  | turn e => exact ⟨[], h.turn C os text e⟩

theorem ShadeVpnService.Serves.serial (commands : List (ι × Command κ)) :
    ∀ {s : ShadeVpnService ι κ} {p : SerialService κ}, s.Serves p → ∃ es, Serial commands es ∧
      (Machine.run (ShadeVpnService.step C os) s es).Serves
        (Machine.run (SerialService.step C os text) p (commands.map Prod.snd)) := by
  induction commands with
  | nil =>
    intro s p h
    exact ⟨[], .nil, h⟩
  | cons head commands ih =>
    intro s p h
    obtain ⟨i, command⟩ := head
    obtain ⟨envs, hserves⟩ := h.command C os text i command
    obtain ⟨es, hserial, hrest⟩ := ih hserves
    refine ⟨command.event i :: (envs.map (Event.step i) ++ es), .cons i command envs hserial, ?_⟩
    rw [← List.cons_append, Machine.run_append]
    exact hrest

end ShadeVpn.Service
