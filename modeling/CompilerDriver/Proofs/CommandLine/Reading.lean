import CompilerDriver.Proofs.CommandLine.Records
/-!
Reading is sound and complete for the grammar.

A reader defers checks: a separate value or a run of residual arguments is checked only when the next option
comes. `Tracks` is the invariant that relates its state to the uses read so far, deferred ones included.
-/
namespace CompilerDriver.CommandLine.Command

namespace State

-- The option that waits for its value.
def awaits (s : State) : Option CommandOption :=
  match s.pending with
  | .awaiting o => some o
  | _ => none

-- What has been read and is not checked yet.
def unsettled (s : State) : List Use :=
  match s.pending with
  | .received o value => [.value o value]
  | .run args => args.map .residual
  | _ => []

end State

-- The state has read exactly the uses, and all but the unsettled ones are recorded.
structure Tracks (c : Command) (s : State) (us : List Use) : Prop where
  settled : ∃ rs, us = rs ++ s.unsettled ∧ Records s rs
  offers : ∀ u ∈ us, c.Offers u
  awaited : ∀ o, s.awaits = some o → o ∈ c.options ∧ o.takesValue = true

variable {c : Command} {s s' : State} {us vs : List Use} {o : CommandOption} {t : Token} {ts : List Token}

namespace Tracks

theorem nil : Tracks c {} [] :=
  ⟨⟨[], rfl, .nil⟩, nofun, nofun⟩

-- No option waits for its value.
theorem of_awaits {rs : List Use} (h : Records s rs) (hw : s.awaits = none) (hus : us = rs ++ s.unsettled)
    (ho : ∀ u ∈ us, c.Offers u) : Tracks c s us where
  settled := ⟨rs, hus, h⟩
  offers := ho
  awaited := by simp [hw]

-- Nothing is open, so all is recorded.
theorem of_records (h : Records s us) (hp : s.pending = .nothing) (ho : ∀ u ∈ us, c.Offers u) :
    Tracks c s us :=
  of_awaits h (by simp [State.awaits, hp]) (by simp [State.unsettled, hp]) ho

end Tracks

theorem check_eq_ok_iff {p : State × Option Fault} : c.check p = .ok s ↔ p.2 = none ∧ p.1 = s := by
  have ⟨s₁, f⟩ := p
  cases f <;> simp [check]

theorem bind_eq_ok_iff {x : Except UsageError State} {f : State → Except UsageError State} :
    (x >>= f) = .ok s ↔ ∃ s₀, x = .ok s₀ ∧ f s₀ = .ok s := by
  cases x <;> simp [bind, Except.bind]

-- No option waits when what is open is settled.
theorem awaits_of_settled (hs : c.settled s = .ok s') : s.awaits = none := by
  have ⟨hf, _⟩ := check_eq_ok_iff.mp hs
  cases hp : s.pending <;> simp only [State.settle, State.awaits, hp] at hf ⊢
  case awaiting => cases hf

-- What settling yields, if it succeeds.
structure Settles (s s₀ : State) (us : List Use) : Prop where
  records : Records s₀ us
  awaits : s.awaits = none
  pending : s₀.pending = .nothing
  trailing : s₀.trailing = s.trailing

theorem Tracks.settled_sound (h : Tracks c s us) (hs : c.settled s = .ok s') : Settles s s' us := by
  have ⟨rs, hus, hr⟩ := h.settled
  have ⟨hf, hs⟩ := check_eq_ok_iff.mp hs
  have hr' : Records { s with pending := .nothing } rs := hr.congr rfl rfl
  subst hs
  cases hp : s.pending <;> simp only [State.settle, State.unsettled, hp] at hf hus ⊢
  case nothing => exact ⟨by simpa [hus] using hr', by simp [State.awaits, hp], rfl, rfl⟩
  case awaiting o => cases hf
  case received o value =>
    have hrs : ∀ u ∈ rs, c.Offers u := fun u hu => h.offers u (hus ▸ List.mem_append_left _ hu)
    have ha := adds_store (c := c) (o := o) value
    exact ⟨hus ▸ ha.records hr' hrs hf, by simp [State.awaits, hp], ha.pending _, ha.trailing _⟩
  case run args =>
    refine ⟨hus ▸ hr'.addResidual hf, by simp [State.awaits, hp], ?_, ?_⟩
    all_goals (simp only [State.addResidual]; split <;> rfl)

theorem Tracks.settled_complete (h : Tracks c s us) (ha : s.awaits = none) (hl : Legal us) :
    ∃ s₀, c.settled s = .ok s₀ := by
  have ⟨rs, hus, hr⟩ := h.settled
  have hr' : Records { s with pending := .nothing } rs := hr.congr rfl rfl
  suffices hf : s.settle.2 = none from ⟨_, check_eq_ok_iff.mpr ⟨hf, rfl⟩⟩
  cases hp : s.pending <;> simp only [State.settle, State.unsettled, State.awaits, hp] at ha hus ⊢
  case awaiting o => cases ha
  case received o value => exact (adds_store (c := c) value).succeeds hr' (hus ▸ hl)
  case run args => exact State.addResidual_of_legal (hus ▸ hl)

-- Reading on from `s` leads to `s'`, which has read the uses and in which the option waits, if any.
structure Reaches (c : Command) (s s' : State) (us : List Use) (a : Option CommandOption) : Prop where
  tracks : Tracks c s' us
  awaits : s'.awaits = a
  trailing : s'.trailing = s.trailing

namespace Reaches

variable {s₁ : State} {a : Option CommandOption}

theorem trans {us₁ : List Use} {a₁ : Option CommandOption} (h₁ : Reaches c s s₁ us₁ a₁)
    (h : Reaches c s₁ s' us a) : Reaches c s s' us a :=
  ⟨h.tracks, h.awaits, h.trailing.trans h₁.trailing⟩

-- The same uses, written in another way.
theorem congr (h : Reaches c s s' us a) (he : us = vs) : Reaches c s s' vs a :=
  he ▸ h

end Reaches

section Steps

variable {op : State → State × Option Fault} {u : Use}

-- Taking up an option settles what is open and adds one use.
theorem Adds.sound (ha : Adds c op u) (hu : c.Offers u) (h : Tracks c s us)
    (hs : (do let s₀ ← c.settled s; c.check (op s₀)) = .ok s') :
    s.awaits = none ∧ Reaches c s s' (us ++ [u]) none := by
  have ⟨s₀, hs₀, hs⟩ := bind_eq_ok_iff.mp hs
  have ⟨hf, hs⟩ := check_eq_ok_iff.mp hs
  have hset := h.settled_sound hs₀
  subst hs
  have hp : (op s₀).1.pending = .nothing := (ha.pending s₀).trans hset.pending
  have hoffers := offers_append h.offers (List.forall_mem_singleton.mpr hu)
  exact ⟨hset.awaits, .of_records (ha.records hset.records h.offers hf) hp hoffers,
    by simp [State.awaits, hp], (ha.trailing s₀).trans hset.trailing⟩

theorem Adds.complete (ha : Adds c op u) (hu : c.Offers u) (h : Tracks c s us) (hw : s.awaits = none)
    (hl : Legal (us ++ [u])) :
    ∃ s', (do let s₀ ← c.settled s; c.check (op s₀)) = .ok s' ∧ Reaches c s s' (us ++ [u]) none := by
  have ⟨s₀, hs₀⟩ := h.settled_complete hw hl.left
  have hf := ha.succeeds (h.settled_sound hs₀).records hl
  have hs : (do let s₀ ← c.settled s; c.check (op s₀)) = .ok (op s₀).1 :=
    bind_eq_ok_iff.mpr ⟨s₀, hs₀, check_eq_ok_iff.mpr ⟨hf, rfl⟩⟩
  exact ⟨_, hs, (ha.sound hu h hs).right⟩

theorem await_sound (ho : o ∈ c.options) (hv : o.takesValue = true) (h : Tracks c s us)
    (hs : c.await s o = .ok s') : s.awaits = none ∧ Reaches c s s' us (some o) := by
  have ⟨s₀, hs₀, hs⟩ := bind_eq_ok_iff.mp hs
  cases hs
  have hset := h.settled_sound hs₀
  have hsettled : Tracks c { s₀ with pending := .awaiting o } us := by
    refine ⟨⟨us, by simp [State.unsettled], hset.records.congr rfl rfl⟩, h.offers, ?_⟩
    rintro _ ⟨⟩
    exact ⟨ho, hv⟩
  exact ⟨hset.awaits, hsettled, rfl, hset.trailing⟩

theorem await_complete (ho : o ∈ c.options) (hv : o.takesValue = true) (h : Tracks c s us)
    (hw : s.awaits = none) (hl : Legal us) : ∃ s', c.await s o = .ok s' ∧ Reaches c s s' us (some o) := by
  have ⟨s₀, hs₀⟩ := h.settled_complete hw hl
  have hs : c.await s o = .ok { s₀ with pending := .awaiting o } := bind_eq_ok_iff.mpr ⟨s₀, hs₀, rfl⟩
  exact ⟨_, hs, (await_sound ho hv h hs).right⟩

-- A residual argument begins a run or goes on with one. It is not checked yet.
theorem takeResidual_sound (h : Tracks c s us) (hs : c.takeResidual s t = .ok s') :
    s.awaits = none ∧ Reaches c s s' (us ++ [.residual t]) none := by
  have hoffers : ∀ u ∈ us ++ [.residual t], c.Offers u :=
    offers_append h.offers (List.forall_mem_singleton.mpr trivial)
  unfold takeResidual at hs
  split at hs
  case h_1 args hp =>
    have ⟨rs, hus, hr⟩ := h.settled
    cases hs
    refine ⟨by simp [State.awaits, hp], .of_awaits (hr.congr rfl rfl) rfl ?_ hoffers, rfl, rfl⟩
    simp [hus, State.unsettled, hp]
  case h_2 hp =>
    obtain ⟨s₀, hs₀, hs⟩ := bind_eq_ok_iff.mp hs
    cases hs
    have hset := h.settled_sound hs₀
    exact ⟨hset.awaits, .of_awaits (hset.records.congr rfl rfl) rfl rfl hoffers, rfl, hset.trailing⟩

theorem takeResidual_complete (h : Tracks c s us) (hw : s.awaits = none) (hl : Legal us) :
    ∃ s', c.takeResidual s t = .ok s' ∧ Reaches c s s' (us ++ [.residual t]) none := by
  suffices hs : ∃ s', c.takeResidual s t = .ok s' by
    have ⟨s', hs⟩ := hs
    exact ⟨s', hs, (takeResidual_sound h hs).right⟩
  unfold takeResidual
  split
  case h_1 => exact ⟨_, rfl⟩
  case h_2 =>
    have ⟨s₀, hs₀⟩ := h.settled_complete hw hl
    exact ⟨_, bind_eq_ok_iff.mpr ⟨s₀, hs₀, rfl⟩⟩

-- An option that waits gets its value. It is not checked yet either.
theorem Tracks.receive (h : Tracks c s us) (hw : s.awaits = some o) :
    Reaches c s { s with pending := .received o t } (us ++ [.value o t]) none := by
  have ⟨rs, hus, hr⟩ := h.settled
  have hun : s.unsettled = [] := by
    unfold State.awaits at hw
    unfold State.unsettled
    split at hw <;> simp_all
  have hoffers : ∀ u ∈ us ++ [.value o t], c.Offers u :=
    offers_append h.offers (List.forall_mem_singleton.mpr (h.awaited o hw))
  refine ⟨.of_awaits (hr.congr rfl rfl) rfl ?_ hoffers, rfl, rfl⟩
  rw [hus, hun, List.append_nil]
  rfl

end Steps

section Tokens

variable (hn : (c.options.map (·.name)).Nodup)
include hn

theorem takeCluster_sound {ls : Token} (h : Tracks c s us) (hw : s.awaits = none)
    (hs : c.takeCluster s ls = .ok s') :
    ∃ vs b, Letters c ls vs b ∧ Reaches c s s' (us ++ vs) b := by
  induction ls generalizing s us
  case nil =>
    cases hs
    exact ⟨[], none, .nil, by simpa using h, hw, rfl⟩
  case cons l ls hi =>
    unfold takeCluster at hs
    split at hs
    case h_1 => contradiction
    case h_2 => contradiction
    case h_3 l _ heq =>
      cases heq
      cases ho : c.short? l <;> simp only [ho] at hs
      case none => contradiction
      case some o =>
        have hmem := short?_mem ho
        split at hs
        case isTrue hv =>
          split at hs
          case h_1 => exact ⟨[], _, .last ho hv, (await_sound hmem hv h hs).right.congr (by simp)⟩
          case h_2 value => exact ⟨_, _, .equals ho hv, ((adds_store value).sound ⟨hmem, hv⟩ h hs).right⟩
          case h_3 hne heq =>
            refine ⟨_, _, .attached ho hv hne fun he => ?_, ((adds_store ls).sound ⟨hmem, hv⟩ h hs).right⟩
            obtain ⟨rest, hrest⟩ := List.head?_eq_some_iff.mp he
            exact heq rest hrest
        case isFalse hv =>
          have hv : o.takesValue = false := by simpa using hv
          obtain ⟨s₁, hs₁, hs⟩ := bind_eq_ok_iff.mp hs
          obtain ⟨_, hr⟩ := (adds_raise hn hmem hv).sound ⟨hmem, hv⟩ h hs₁
          obtain ⟨vs, b, hl, hr'⟩ := hi hr.tracks hr.awaits hs
          exact ⟨.switch o :: vs, b, .switch ho hv hl, (hr.trans hr').congr (by simp)⟩

theorem takeCluster_complete {ls : Token} {b : Option CommandOption} (hl : Letters c ls vs b)
    (h : Tracks c s us) (hw : s.awaits = none) (hlegal : Legal (us ++ vs)) :
    ∃ s', c.takeCluster s ls = .ok s' ∧ Reaches c s s' (us ++ vs) b := by
  induction hl generalizing s us
  case nil => exact ⟨s, rfl, by simpa using h, hw, rfl⟩
  case switch l ls o vs b ho hv _ hi =>
    have hmem := short?_mem ho
    have hlegal : Legal (us ++ [.switch o] ++ vs) := by simpa using hlegal
    obtain ⟨s₁, hs₁, hr⟩ := (adds_raise hn hmem hv).complete ⟨hmem, hv⟩ h hw hlegal.left
    obtain ⟨s', hs', hr'⟩ := hi hr.tracks hr.awaits hlegal
    refine ⟨s', ?_, (hr.trans hr').congr (by simp)⟩
    simp only [takeCluster, ho, hv]
    exact bind_eq_ok_iff.mpr ⟨s₁, hs₁, hs'⟩
  case last l o ho hv =>
    obtain ⟨s', hs', hr⟩ := await_complete (short?_mem ho) hv h hw hlegal.left
    exact ⟨s', by simpa only [takeCluster, ho, hv, if_true] using hs', hr.congr (by simp)⟩
  case equals l o value ho hv =>
    obtain ⟨s', hs', hr⟩ := (adds_store value).complete ⟨short?_mem ho, hv⟩ h hw hlegal
    exact ⟨s', by simpa only [takeCluster, ho, hv, if_true, takeValue] using hs', hr⟩
  case attached l o value ho hv hne heq =>
    obtain ⟨s', hs', hr⟩ := (adds_store value).complete ⟨short?_mem ho, hv⟩ h hw hlegal
    refine ⟨s', ?_, hr⟩
    simp only [takeCluster, ho, hv, if_true]
    split
    case h_1 => exact absurd rfl hne
    case h_2 => exact absurd rfl heq
    case h_3 => exact hs'

-- A cluster has a letter, and its first letter already settles what is open.
theorem takeCluster_awaits {ls : Token} (hne : ls ≠ []) (h : Tracks c s us)
    (hs : c.takeCluster s ls = .ok s') : s.awaits = none := by
  unfold takeCluster at hs
  split at hs
  case h_1 => contradiction
  case h_2 => contradiction
  case h_3 l ls =>
    cases ho : c.short? l <;> simp only [ho] at hs
    case none => contradiction
    case some o =>
      have hmem := short?_mem ho
      split at hs
      case isTrue hv =>
        split at hs
        case h_1 => exact (await_sound hmem hv h hs).left
        all_goals exact ((adds_store _).sound ⟨hmem, hv⟩ h hs).left
      case isFalse hv =>
        have hv : o.takesValue = false := by simpa using hv
        obtain ⟨_, hs₁, _⟩ := bind_eq_ok_iff.mp hs
        exact ((adds_raise hn hmem hv).sound ⟨hmem, hv⟩ h hs₁).left

theorem takeLong_sound {name : Token} {attached : Option Token} (ht : t.shape = .long name attached)
    (h : Tracks c s us) (hs : c.takeLong s name attached = .ok s') :
    ∃ vs b, Gives c s.awaits t vs b ∧ Reaches c s s' (us ++ vs) b := by
  unfold takeLong at hs
  split at hs
  case h_1 => contradiction
  case h_2 o ho =>
    have hmem := Long.mem ho
    split at hs
    case isTrue hv =>
      cases attached
      case some value =>
        have ⟨hw, hr⟩ := (adds_store value).sound ⟨hmem, hv⟩ h hs
        exact ⟨_, _, hw ▸ .attached ht ho hv, hr⟩
      case none =>
        have ⟨hw, hr⟩ := await_sound hmem hv h hs
        exact ⟨[], _, hw ▸ .separate ht ho hv, hr.congr (by simp)⟩
    case isFalse hv =>
      have hv : o.takesValue = false := by simpa using hv
      cases attached
      case some value => contradiction
      case none =>
        obtain ⟨hw, hr⟩ := (adds_raise hn hmem hv).sound ⟨hmem, hv⟩ h hs
        exact ⟨_, _, hw ▸ .switch ht ho hv, hr⟩

-- One token read gives what the grammar says.
theorem step_sound (hs : t.shape ≠ .terminator) (htr : s.trailing = false) (h : Tracks c s us)
    (hstep : c.step s t = .ok s') :
    ∃ vs b, Gives c s.awaits t vs b ∧ Reaches c s s' (us ++ vs) b := by
  rw [step, if_neg (by simp [htr])] at hstep
  cases ht : t.shape <;> simp only [ht] at hstep
  case terminator => contradiction
  case long name attached => exact takeLong_sound hn ht h hstep
  case cluster ls =>
    have hw := takeCluster_awaits hn (Token.ne_nil_of_cluster ht) h hstep
    obtain ⟨vs, b, hl, hr⟩ := takeCluster_sound hn h hw hstep
    exact ⟨vs, b, hw ▸ .cluster ht hl, hr⟩
  case plain =>
    split at hstep
    case h_1 o hp =>
      cases hstep
      have hw : s.awaits = some o := by simp [State.awaits, hp]
      exact ⟨[.value o t], none, hw ▸ .awaited ht, h.receive hw⟩
    case h_2 =>
      obtain ⟨hw, hr⟩ := takeResidual_sound h hstep
      exact ⟨[.residual t], none, hw.symm ▸ .residual ht, hr⟩

-- One token that gives legal uses is read.
theorem step_complete {b : Option CommandOption} (hg : Gives c s.awaits t vs b) (htr : s.trailing = false)
    (h : Tracks c s us) (hl : Legal (us ++ vs)) : ∃ s', c.step s t = .ok s' ∧ Reaches c s s' (us ++ vs) b := by
  generalize hw : s.awaits = a at hg
  rw [step, if_neg (by simp [htr])]
  cases hg
  case residual hs =>
    obtain ⟨s', hs', hr⟩ := takeResidual_complete (t := t) h hw hl.left
    refine ⟨s', ?_, hr⟩
    simp only [hs]
    split
    case h_1 o hp => simp [State.awaits, hp] at hw
    case h_2 => exact hs'
  case awaited o hs =>
    have hp : s.pending = .awaiting o := by
      unfold State.awaits at hw
      split at hw <;> simp_all
    simp only [hs, hp]
    exact ⟨_, rfl, h.receive hw⟩
  case switch name o ho hv hs =>
    obtain ⟨s', hs', hr⟩ := (adds_raise hn ho.mem hv).complete ⟨ho.mem, hv⟩ h hw hl
    refine ⟨s', ?_, hr⟩
    simp only [hs, takeLong, show name.text?.bind c.long? = some o from ho, hv]
    exact hs'
  case separate name o ho hv hs =>
    obtain ⟨s', hs', hr⟩ := await_complete ho.mem hv h hw hl.left
    refine ⟨s', ?_, hr.congr (by simp)⟩
    simp only [hs, takeLong, show name.text?.bind c.long? = some o from ho, hv]
    exact hs'
  case attached name value o ho hv hs =>
    obtain ⟨s', hs', hr⟩ := (adds_store value).complete ⟨ho.mem, hv⟩ h hw hl
    refine ⟨s', ?_, hr⟩
    simp only [hs, takeLong, show name.text?.bind c.long? = some o from ho, hv]
    exact hs'
  case cluster ls hs hletters =>
    obtain ⟨s', hs', hr⟩ := takeCluster_complete hn hletters h hw hl
    exact ⟨s', by simp only [hs, hs'], hr⟩

end Tokens

theorem foldlM_cons_eq_ok_iff : (t :: ts).foldlM c.step s = .ok s' ↔
    ∃ s₁, c.step s t = .ok s₁ ∧ ts.foldlM c.step s₁ = .ok s' := by
  rw [List.foldlM_cons, bind_eq_ok_iff]

theorem step_terminator (hs : t.shape = .terminator) (htr : s.trailing = false) :
    c.step s t = .ok { s with trailing := true } := by
  simp [step, htr, hs]

theorem Tracks.set_trailing (h : Tracks c s us) : Tracks c { s with trailing := true } us :=
  have ⟨rs, hus, hr⟩ := h.settled
  ⟨⟨rs, hus, hr.congr rfl rfl⟩, h.offers, h.awaited⟩

-- Behind `--` every token is a residual argument.
theorem trailing_sound (htr : s.trailing = true) (h : Tracks c s us) (hs : ts.foldlM c.step s = .ok s') :
    Tracks c s' (us ++ ts.map .residual) ∧ (s'.awaits = none → s.awaits = none) := by
  induction ts generalizing s us
  case nil =>
    cases hs
    exact ⟨by simpa using h, id⟩
  case cons t ts hi =>
    obtain ⟨s₁, hs₁, hs⟩ := foldlM_cons_eq_ok_iff.mp hs
    simp only [step, htr, if_true] at hs₁
    obtain ⟨hw, hr⟩ := takeResidual_sound h hs₁
    obtain ⟨ht, _⟩ := hi (hr.trailing.trans htr) hr.tracks hs
    exact ⟨by simpa using ht, fun _ => hw⟩

theorem trailing_complete (htr : s.trailing = true) (hw : s.awaits = none) (h : Tracks c s us)
    (hl : Legal (us ++ ts.map .residual)) :
    ∃ s', ts.foldlM c.step s = .ok s' ∧ s'.awaits = none ∧ Tracks c s' (us ++ ts.map .residual) := by
  induction ts generalizing s us
  case nil => exact ⟨s, rfl, hw, by simpa using h⟩
  case cons t ts hi =>
    have hl : Legal (us ++ [.residual t] ++ ts.map .residual) := by simpa using hl
    obtain ⟨s₁, hs₁, hr⟩ := takeResidual_complete (t := t) h hw hl.left.left
    obtain ⟨s', hs', hw', ht⟩ := hi (hr.trailing.trans htr) hr.awaits hr.tracks hl
    refine ⟨s', foldlM_cons_eq_ok_iff.mpr ⟨s₁, ?_, hs'⟩, hw', by simpa using ht⟩
    simpa only [step, htr, if_true] using hs₁

section Runs

variable (hn : (c.options.map (·.name)).Nodup)
include hn

theorem foldlM_sound (htr : s.trailing = false) (h : Tracks c s us) (hs : ts.foldlM c.step s = .ok s')
    (hw : s'.awaits = none) : ∃ vs, Spells c s.awaits ts vs ∧ Tracks c s' (us ++ vs) := by
  induction ts generalizing s us
  case nil =>
    cases hs
    exact ⟨[], hw ▸ .done, by simpa using h⟩
  case cons t ts hi =>
    obtain ⟨s₁, hs₁, hs⟩ := foldlM_cons_eq_ok_iff.mp hs
    by_cases ht : t.shape = .terminator
    case pos =>
      cases (step_terminator ht htr).symm.trans hs₁
      obtain ⟨ht', hw'⟩ := trailing_sound rfl h.set_trailing hs
      have ha : s.awaits = none := hw' hw
      exact ⟨_, ha ▸ .escape ht, ht'⟩
    case neg =>
      obtain ⟨vs, b, hg, hr⟩ := step_sound hn ht htr h hs₁
      obtain ⟨ws, hsp, ht'⟩ := hi (hr.trailing.trans htr) hr.tracks hs
      exact ⟨vs ++ ws, .token hg (hr.awaits ▸ hsp), by simpa using ht'⟩

theorem foldlM_complete {a : Option CommandOption} (hsp : Spells c a ts vs) (ha : s.awaits = a)
    (htr : s.trailing = false) (h : Tracks c s us) (hl : Legal (us ++ vs)) :
    ∃ s', ts.foldlM c.step s = .ok s' ∧ s'.awaits = none ∧ Tracks c s' (us ++ vs) := by
  induction hsp generalizing s us
  case done => exact ⟨s, rfl, ha, by simpa using h⟩
  case token hg _ hi =>
    have hl := List.append_assoc .. ▸ hl
    obtain ⟨s₁, hs₁, hr⟩ := step_complete hn (ha ▸ hg) htr h hl.left
    obtain ⟨s', hs', hw, ht⟩ := hi hr.awaits (hr.trailing.trans htr) hr.tracks hl
    exact ⟨s', foldlM_cons_eq_ok_iff.mpr ⟨s₁, hs₁, hs'⟩, hw, by simpa using ht⟩
  case escape hs =>
    have hst := step_terminator (c := c) hs htr
    obtain ⟨s', hs', hw, ht⟩ := trailing_complete (s := { s with trailing := true }) rfl ha h.set_trailing hl
    exact ⟨s', foldlM_cons_eq_ok_iff.mpr ⟨_, hst, hs'⟩, hw, ht⟩

-- What is read is spelt out by the tokens.
theorem read_sound (hs : c.read ts = .ok s) : ∃ us, Spells c none ts us ∧ Records s us := by
  have ⟨s₁, hs₁, hs⟩ := bind_eq_ok_iff.mp hs
  have ⟨us, hsp, ht⟩ := foldlM_sound hn rfl .nil hs₁ (awaits_of_settled hs)
  exact ⟨us, hsp, (ht.settled_sound hs).records⟩

-- What the tokens spell out is read if it is legal.
theorem read_complete (hsp : Spells c none ts us) (hl : Legal us) : ∃ s, c.read ts = .ok s ∧ Records s us := by
  have ⟨s₁, hs₁, hw, ht⟩ := foldlM_complete hn hsp rfl rfl .nil hl
  have ⟨s, hs⟩ := ht.settled_complete hw hl
  exact ⟨s, bind_eq_ok_iff.mpr ⟨s₁, hs₁, hs⟩, (ht.settled_sound hs).records⟩

end Runs

theorem Records.mem_given (h : Records s us) (n : String) :
    n ∈ s.given.map (·.1.name) ↔ n ∈ Use.names us := by
  have hm : s.given.map (·.1.name) = s.entries.map Prod.fst := by simp [State.entries]
  rw [hm, ← Keyed.isSome_find?_iff, h.find]
  split <;> simp [*]

theorem Records.get?_options (h : Records s us) (before : Globals) (e : Composition.Entry) (n : String) :
    (s.toSelection before e).options.get? n =
      if n ∈ Use.names us ∧ n ∉ Globals.names then some (Use.valuesOf n us) else none := by
  have he : ((s.given.filter fun g => g.1.name ∉ Globals.names).map fun g => (g.1.name, g.2)) =
      s.entries.filter fun e => e.1 ∉ Globals.names := by
    simp only [State.entries, List.filter_map]
    rfl
  have hnodup := h.nodup.sublist (List.Sublist.map _ (List.filter_sublist (p := fun e => e.1 ∉ Globals.names)))
  rw [State.toSelection, he, Keyed.get?_ofList, Keyed.find?_reverse hnodup,
    Keyed.find?_filter fun m => decide (m ∉ Globals.names), h.find]
  by_cases hg : n ∈ Globals.names <;> simp [hg]

-- The uses that are recorded are all that is selected.
theorem Records.toSelection_eq (h : Records s us) (before : Globals) (e : Composition.Entry) :
    s.toSelection before e = .ofUses before e us := by
  have hg : Globals.ofNames (s.given.map (·.1.name)) = .ofNames (Use.names us) := by
    simp only [Globals.ofNames, List.contains_eq_mem, h.mem_given]
  have ho : (s.toSelection before e).options = (Selection.ofUses before e us).options :=
    Keyed.ext_get? fun n => (h.get?_options before e n).trans (Selection.get?_ofUses before e us n).symm
  simp only [State.toSelection, Selection.ofUses, hg, h.residual] at ho ⊢
  rw [ho]

end CompilerDriver.CommandLine.Command

namespace CompilerDriver.Composition

open CommandLine Command

-- A provider is selected exactly when the tokens after its name spell out legal uses.
theorem selectEntry_eq_ok_iff {given : List String} {e : Entry} {ts : List Token} {s : Selection}
    (he : ((Command.ofEntry e).options.map (·.name)).Nodup) : selectEntry given e ts = .ok s ↔
      ∃ us, Spells (Command.ofEntry e) none ts us ∧ Legal us ∧ s = .ofUses (.ofNames given) e us := by
  have hbind : selectEntry given e ts = .ok s ↔
      ∃ st, (Command.ofEntry e).read ts = .ok st ∧ st.toSelection (.ofNames given) e = s := by
    unfold selectEntry
    cases (Command.ofEntry e).read ts <;> simp [bind, Except.bind, pure, Except.pure]
  rw [hbind]
  constructor
  case mp =>
    rintro ⟨st, hr, hs⟩
    obtain ⟨us, hsp, hrec⟩ := read_sound he hr
    exact ⟨us, hsp, hrec.legal, hs ▸ hrec.toSelection_eq ..⟩
  case mpr =>
    rintro ⟨us, hsp, hl, hs⟩
    obtain ⟨st, hr, hrec⟩ := read_complete he hsp hl
    exact ⟨st, hr, hs ▸ hrec.toSelection_eq ..⟩

end CompilerDriver.Composition
