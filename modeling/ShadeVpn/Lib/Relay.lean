import ShadeVpn.Lib.Machine

/-!
# Messages on the way through a relay

A sender puts letters on a line; a receiver reads them one at a time, and what it
reads of a letter depends on the letters before it.  `Carries` says which messages
the letters still on the line carry, and where the receiver stands behind them.
A `Channel` is the bytes of such letters: the sender writes at the far end
(`Channel.send`), the receiver reads at the near one (`Channel.take`), and either may
give up its end.

`Echo` is what two such lines with a relay between them are for: messages go up,
come down again and are handed over.  In any order of steps nothing is lost, made
up or put in another order (`Echo.conserved`).
-/

namespace Relay

/-! ## Letters on a line -/

section Carries

variable {R F M : Type} {reads : R → F → M → R → Prop}

/-- From `r` the letters are read as these messages, and the receiver stands at `r'`
behind them. -/
inductive Carries (reads : R → F → M → R → Prop) : R → List F → List M → R → Prop
  | nil (r : R) : Carries reads r [] [] r
  | cons {r r₁ r' : R} {f : F} {fs : List F} {m : M} {ms : List M} (h : reads r f m r₁)
      (hs : Carries reads r₁ fs ms r') : Carries reads r (f :: fs) (m :: ms) r'

/-- The sender adds a letter at the far end. -/
theorem Carries.snoc {r r' r'' : R} {fs : List F} {ms : List M} (h : Carries reads r fs ms r')
    {f : F} {m : M} (hf : reads r' f m r'') : Carries reads r (fs ++ [f]) (ms ++ [m]) r'' := by
  induction h with
  | nil r => exact .cons hf (.nil r'')
  | cons h hs ih => exact .cons h (ih hf)

/-- The receiver takes the letter at the near end. -/
theorem Carries.cons_inv {r r' : R} {f : F} {fs : List F} {ms : List M}
    (h : Carries reads r (f :: fs) ms r') :
    ∃ m ms' r₁, ms = m :: ms' ∧ reads r f m r₁ ∧ Carries reads r₁ fs ms' r' := by
  cases h with
  | cons h hs => exact ⟨_, _, _, rfl, h, hs⟩

/-- No letter carries no message. -/
theorem Carries.nil_inv {r r' : R} {ms : List M} (h : Carries reads r [] ms r') :
    ms = [] ∧ r' = r := by
  cases h with
  | nil r => exact ⟨rfl, rfl⟩

end Carries

/-! ## Lines of bytes

A line is the bytes its sender has written, `taken` of which the receiver has read.
While the receiver reads, what it has not read are whole letters and perhaps the
front of one that the sender could not finish.  `ready` says what the sender knows
of the receiver behind the last letter. -/

section Channel

variable {R F M β : Type} (reads : R → F → M → R → Prop) (enc : F → List β)
  (unfinished : List β → Prop)

/-- The messages `ms` are on the line to a receiver at `near`. -/
def Channel (sending : Prop) (ready : R → Prop) (receiving : Prop) (wire : List β) (taken : ℕ)
    (near : R) (ms : List M) : Prop :=
  ∃ fs tail far, (sending → ready far) ∧
    (receiving → taken ≤ wire.length ∧ wire.drop taken = fs.flatMap enc ++ tail ∧
      unfinished tail ∧ (sending → tail = []) ∧ Carries reads near fs ms far)

variable {reads enc unfinished} {sending receiving : Prop} {ready : R → Prop} {wire : List β}
  {taken : ℕ} {near : R} {ms : List M}

/-- A line nobody has used. -/
theorem Channel.empty (hnil : unfinished []) (hready : ready near) :
    Channel reads enc unfinished sending ready receiving [] 0 near [] :=
  ⟨[], [], near, fun _ => hready, fun _ => ⟨le_refl _, rfl, hnil, fun _ => rfl, .nil near⟩⟩

/-- An end of a line that is given up. -/
theorem Channel.mono (h : Channel reads enc unfinished sending ready receiving wire taken near ms)
    {sending' receiving' : Prop} {ready' : R → Prop} (hs : sending' → sending)
    (hr : receiving' → receiving) (hready : ∀ r, sending' → ready r → ready' r) :
    Channel reads enc unfinished sending' ready' receiving' wire taken near ms := by
  obtain ⟨fs, tail, far, hfar, hline⟩ := h
  refine ⟨fs, tail, far, fun h => hready far h (hfar (hs h)), fun h => ?_⟩
  obtain ⟨htaken, hwire, htail, hwhole, hcarries⟩ := hline (hr h)
  exact ⟨htaken, hwire, htail, fun h => hwhole (hs h), hcarries⟩

/-- Nobody reads: only what the sender knows is left. -/
theorem Channel.deaf (h : Channel reads enc unfinished sending ready receiving wire taken near ms)
    {receiving' : Prop} (hdeaf : ¬ receiving') (wire' : List β) (taken' : ℕ) (near' : R)
    (ms' : List M) :
    Channel reads enc unfinished sending ready receiving' wire' taken' near' ms' := by
  obtain ⟨fs, tail, far, hfar, -⟩ := h
  exact ⟨fs, tail, far, hfar, fun h => absurd h hdeaf⟩

/-- **Sending.**  The sender knows where the receiver will stand, and puts a letter that
is read there, or the front of one, at the end of the line. -/
theorem Channel.send (h : Channel reads enc unfinished sending ready receiving wire taken near ms)
    (hs : sending) (hnil : unfinished []) :
    ∃ far, ready far ∧
      (∀ {f m far'} {ready' : R → Prop}, reads far f m far' → ready' far' →
        Channel reads enc unfinished sending ready' receiving (wire ++ enc f) taken near
          (ms ++ [m])) ∧
      ∀ {bytes} {sending' : Prop} {ready' : R → Prop}, unfinished bytes → ¬ sending' →
        Channel reads enc unfinished sending' ready' receiving (wire ++ bytes) taken near ms := by
  obtain ⟨fs, tail, far, hfar, hline⟩ := h
  refine ⟨far, hfar hs, ?_, ?_⟩
  · intro f m far' ready' hread hready
    refine ⟨fs ++ [f], [], far', fun _ => hready, fun hr => ?_⟩
    obtain ⟨htaken, hwire, -, hwhole, hcarries⟩ := hline hr
    rw [hwhole hs, List.append_nil] at hwire
    refine ⟨htaken.trans (by simp), ?_, hnil, fun _ => rfl, hcarries.snoc hread⟩
    rw [List.drop_append_of_le_length htaken, hwire]
    simp
  · intro bytes sending' ready' hbytes hs'
    refine ⟨fs, bytes, far, fun h => absurd h hs', fun hr => ?_⟩
    obtain ⟨htaken, hwire, -, hwhole, hcarries⟩ := hline hr
    rw [hwhole hs, List.append_nil] at hwire
    refine ⟨htaken.trans (by simp), ?_, hbytes, fun h => absurd h hs', hcarries⟩
    rw [List.drop_append_of_le_length htaken, hwire]

/-- **Receiving.**  Either nothing is on the line, or the next letter on it carries the
next message. -/
theorem Channel.take (h : Channel reads enc unfinished sending ready receiving wire taken near ms)
    (hr : receiving) :
    unfinished (wire.drop taken) ∧ ms = [] ∨
      ∃ f rest m ms' near', wire.drop taken = enc f ++ rest ∧ ms = m :: ms' ∧
        reads near f m near' ∧
        Channel reads enc unfinished sending ready receiving wire (taken + (enc f).length) near'
          ms' := by
  obtain ⟨fs, tail, far, hfar, hline⟩ := h
  obtain ⟨htaken, hwire, htail, hwhole, hcarries⟩ := hline hr
  cases fs with
  | nil =>
    rw [List.flatMap_nil, List.nil_append] at hwire
    rw [hwire]
    exact Or.inl ⟨htail, hcarries.nil_inv.1⟩
  | cons f fs =>
    obtain ⟨m, ms', near', rfl, hread, hcarries'⟩ := hcarries.cons_inv
    rw [List.flatMap_cons, List.append_assoc] at hwire
    have hlen := congrArg List.length hwire
    rw [List.length_drop, List.length_append] at hlen
    refine Or.inr ⟨f, fs.flatMap enc ++ tail, m, ms', near', hwire, rfl, hread,
      fs, tail, far, hfar, fun _ => ⟨by omega, ?_, htail, hwhole, hcarries'⟩⟩
    rw [← List.drop_drop, hwire, List.drop_left' rfl]

end Channel

/-! ## The relay as such -/

/-- The messages on the way up, those on the way down, and those handed over. -/
structure Echo (M : Type) where
  up : List M
  down : List M
  got : List M

/-- A message is sent, turned round at the top, or handed over at the bottom. -/
inductive Hop (M : Type) where
  | send (m : M)
  | turn
  | deliver

variable {M : Type}

/-- One hop; there is nothing to do on an empty line. -/
def Echo.step : Echo M → Hop M → Echo M
  | s, .send m => { s with up := s.up ++ [m] }
  | ⟨m :: up, down, got⟩, .turn => ⟨up, down ++ [m], got⟩
  | ⟨up, m :: down, got⟩, .deliver => ⟨up, down, got ++ [m]⟩
  | s, _ => s

/-- Nothing on the way. -/
def Echo.idle : Echo M := ⟨[], [], []⟩

/-- Everything that was ever sent, the oldest first. -/
def Echo.all (s : Echo M) : List M := s.got ++ s.down ++ s.up

theorem Echo.mem_all {s : Echo M} {m : M} : m ∈ s.all ↔ m ∈ s.got ∨ m ∈ s.down ∨ m ∈ s.up := by
  rw [Echo.all, List.mem_append, List.mem_append, or_assoc]

/-- What a hop sends. -/
def Hop.sent : Hop M → List M
  | .send m => [m]
  | _ => []

theorem Echo.all_step (s : Echo M) (h : Hop M) : (s.step h).all = s.all ++ h.sent := by
  obtain ⟨up, down, got⟩ := s
  cases h with
  | send m => simp [Echo.step, Echo.all, Hop.sent]
  | turn => cases up <;> simp [Echo.step, Echo.all, Hop.sent]
  | deliver => cases down <;> simp [Echo.step, Echo.all, Hop.sent]

/-- **Conservation.**  In any order of hops, what was handed over, what is on the way
down and what is on the way up are together what was sent, in order. -/
theorem Echo.conserved (s : Echo M) (hops : List (Hop M)) :
    (Machine.run Echo.step s hops).all = s.all ++ hops.flatMap Hop.sent := by
  induction hops generalizing s with
  | nil => simp
  | cons h hops ih => rw [Machine.run_cons, ih, Echo.all_step, List.flatMap_cons, List.append_assoc]

end Relay
