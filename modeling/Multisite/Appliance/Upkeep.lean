import Multisite.Appliance.Network
import Multisite.Lib.Progress

/-!
Keeping the network sound up: what the passes of the campus player do over whole runs.

* `chosen_eq`, `cfg_pass`, `active_pass`: what one pass decides and does;
* `off_stays_off`: a source that is off stays off as long as no pass goes without having been
  shown it;
* `stop_lasts_iff`: a daemon that was stopped is started again by the next pass that can;
* `passes_settle_iff`: with everything answered three passes put everything right, exactly if the
  card's own line is the first that names it.
-/

namespace Multisite

open Lib

/-! ### The daemon's source -/

namespace Aes67Daemon

/-- The switch of the player's source, if there is one. -/
def switch (d : Aes67Daemon) : Option Bool := d.source?.map (·.enabled)

variable (d : Aes67Daemon)

lemma put_refused (body : Json) : d.put body .refused = d := by simp [put]

lemma source?_put {a : PutAnswer} (ha : a ≠ .refused) (channels : ℤ) (address name : String)
    (enabled : Bool) :
    (d.put (aes67SourceBody kAes67SourceId channels address name enabled) a).source? =
      some (Aes67Source.made kAes67SourceId channels address name enabled) := by
  have hnone : (d.sources.filter fun x => x.id ≠ kAes67SourceId).find?
      (fun x => x.id = kAes67SourceId) = none := by simp [List.find?_eq_none]
  simp only [put, Aes67Source.read_sourceBody, if_neg ha, source?, Aes67Source.made]
  rw [List.find?_append, hnone, Option.none_or]
  simp

@[simp] lemma installed_put (body : Json) (a : PutAnswer) :
    (d.put body a).installed = d.installed := by
  rw [put]
  split <;> rfl

@[simp] lemma active_put (body : Json) (a : PutAnswer) : (d.put body a).active = d.active := by
  rw [put]
  split <;> rfl

/-- What is done to the service changes only whether it runs and is set to. -/
lemma setService_eq (start enable : Bool) (a : Aes67Answers) :
    (d.setService start enable a).1 = d ∨
      ∃ boot, (d.setService start enable a).1 = { d with active := start, atBoot := boot } := by
  simp only [setService]
  split_ifs
  all_goals first | exact Or.inl rfl | exact Or.inr ⟨_, rfl⟩

@[simp] lemma source?_setService (start enable : Bool) (a : Aes67Answers) :
    (d.setService start enable a).1.source? = d.source? := by
  rcases d.setService_eq start enable a with h | ⟨boot, h⟩ <;> rw [h]
  rfl

@[simp] lemma installed_setService (start enable : Bool) (a : Aes67Answers) :
    (d.setService start enable a).1.installed = d.installed := by
  rcases d.setService_eq start enable a with h | ⟨boot, h⟩ <;> rw [h]

/-- Starting it leaves it running unless `systemctl` would not. -/
lemma active_setService_start (enable : Bool) (a : Aes67Answers) :
    (d.setService true enable a).1.active = (d.active || a.start) := by
  simp only [setService]
  split_ifs <;> simp_all

/-- Making sure of the source leaves it switched on, unless the daemon refuses it. -/
lemma switch_ensureSource (channels : ℤ) (address name : String) (a : Aes67Answers) :
    (d.ensureSource channels address name true a).switch =
      if a.put = .refused then d.switch else some true := by
  rw [switch, ensureSource]
  split
  · rename_i h
    rw [h, put_refused, switch]
  · rename_i h
    rw [source?_put d h, Option.map_some, Aes67Source.made]

/-- Switching it off leaves a source that was off off. -/
lemma switch_setSourceEnabled_false {a : Aes67Answers} (h : d.switch = some false) :
    (d.setSourceEnabled false a).switch = some false := by
  rw [setSourceEnabled]
  split
  · exact h
  · obtain ⟨s, hs, -⟩ := Option.map_eq_some_iff.mp h
    have hid : s.id = kAes67SourceId := by simpa using List.find?_some hs
    simp only [hs, hid]
    by_cases hput : a.put = .refused
    · rw [hput, put_refused]
      exact h
    · rw [switch, source?_put d hput, Option.map_some, Aes67Source.made]

end Aes67Daemon

/-! ### What a pass does -/

/-- The answers say that the clock is locked. -/
def Aes67Answers.locked (a : Aes67Answers) : Bool := a.ptp.any ptpLocked

namespace NetworkBox

/-- The network sound is to be kept up, and can be. -/
def watched (b : NetworkBox) : Bool :=
  b.cfg.manage && b.cfg.alsaDevice ≠ "" && b.daemon.installed

/-- The source is the one that the box means. -/
def right (b : NetworkBox) (s : Aes67Source) : Bool :=
  s.matchesShape (aes67ChannelsToMap b.cfg.channels) b.address

/-- The card is there. -/
def present (b : NetworkBox) : Bool := aes67CardPresent b.cards kAes67CardName

/-- The player writes to it. -/
def onCard (b : NetworkBox) : Bool := aes67DeviceIsCard b.cfg.alsaDevice kAes67CardName

/-- The device the card is reached by. -/
def cardDevice (b : NetworkBox) : String := aes67CardDevice b.cards kAes67CardName

/-- What one turn does. -/
def chosen (b : NetworkBox) (a : Aes67Answers) : Aes67Action :=
  if b.cfg.manage && b.cfg.alsaDevice ≠ "" then b.decided a else .none

/-- What is done to the source that was shown, once the clock is locked. -/
def overSource (b : NetworkBox) : Option Aes67Source → Aes67Action
  | none => .ensureSource
  | some s =>
      if !s.enabled then .none
      else if !b.right s then .ensureSource
      else if b.present && !b.onCard then .repointCard
      else .none

/-- A pass over a source that it was not shown. -/
def blind (b : NetworkBox) (a : Aes67Answers) : Bool :=
  b.watched && b.daemon.active && a.locked && !a.listed && a.put ≠ .refused

variable {b : NetworkBox} {a : Aes67Answers}

lemma pass_eq (b : NetworkBox) (a : Aes67Answers) : b.pass a = b.carryOut a (b.chosen a) := by
  rw [pass, chosen, reconcileOnce]
  split <;> rfl

/-- The decision, read from the box. -/
lemma chosen_eq (b : NetworkBox) (a : Aes67Answers) :
    b.chosen a =
      if !b.watched then .none
      else if !b.daemon.active then .startService
      else if a.ptp.isNone then .none
      else if !a.locked then .waitForClock
      else b.overSource (if a.listed then b.daemon.source? else none) := by
  rw [chosen, decided, watched]
  cases hm : b.cfg.manage with
  | false => simp
  | true =>
      by_cases hd : b.cfg.alsaDevice = ""
      · simp [hd]
      · cases hi : b.daemon.installed with
        | false => simp [hd, hi, aes67ConvergeAction, probe]
        | true =>
            cases hactive : b.daemon.active with
            | false => simp [hd, hi, hactive, aes67ConvergeAction, probe]
            | true =>
                cases hptp : a.ptp with
                | none => simp [hd, hi, hactive, hptp, aes67ConvergeAction, probe]
                | some j =>
                    cases hl : a.listed with
                    | false =>
                        simp [hd, hi, hactive, hptp, hl, aes67ConvergeAction, probe,
                          Aes67Answers.locked, overSource]
                    | true =>
                        cases hs : b.daemon.source? with
                        | none =>
                            simp [hd, hi, hactive, hptp, hl, hs, aes67ConvergeAction, probe,
                              Aes67Answers.locked, overSource]
                        | some s =>
                            simp [hd, hi, hactive, hptp, hl, hs, aes67ConvergeAction, probe,
                              Aes67Answers.locked, overSource, right, present, onCard]

/-- The switch changes only where a source is put. -/
lemma switch_carryOut (x : Aes67Action) :
    (b.carryOut a x).1.daemon.switch =
      if x = .ensureSource ∧ a.put ≠ .refused then some true else b.daemon.switch := by
  cases x with
  | none => rfl
  | waitForClock => rfl
  | startService =>
      simp [carryOut, Aes67Daemon.switch]
  | ensureSource =>
      simp only [carryOut, Aes67Daemon.switch_ensureSource, true_and]
      split_ifs <;> simp_all
  | repointCard =>
      simp only [carryOut]
      split_ifs <;> simp_all

/-- Over a source that is off a pass puts one exactly if the source was not shown to it. -/
lemma chosen_of_off (hoff : b.daemon.switch = some false) :
    b.chosen a = .ensureSource ↔
      (b.watched && b.daemon.active && a.locked && !a.listed) = true := by
  obtain ⟨s, hs, hen⟩ := Option.map_eq_some_iff.mp hoff
  rw [chosen_eq]
  cases hw : b.watched <;> cases hac : b.daemon.active <;> simp
  cases hp : a.ptp with
  | none => simp [Aes67Answers.locked, hp]
  | some j =>
      cases hk : a.locked <;> cases hl : a.listed <;> simp [hs, hen, overSource]

/-- **A pass switches on a source that is off exactly if it was not shown it.** -/
lemma switch_pass_of_off (hoff : b.daemon.switch = some false) :
    (b.pass a).1.daemon.switch = if b.blind a then some true else some false := by
  rw [pass_eq, switch_carryOut]
  simp only [chosen_of_off hoff, hoff, blind]
  by_cases hput : a.put = .refused <;> simp [hput]

end NetworkBox

/-- A box with its source, whose network sound is to be kept up. -/
def sampleNetworkBox (cards : String) (enabled : Bool) : NetworkBox :=
  { cfg := { manage := true, alsaDevice := "hw:0" }
    daemon :=
      { installed := true, active := true, atBoot := true,
        sources := [Aes67Source.made kAes67SourceId 8 "239.1.0.2" "Multisite room" enabled] }
    cards := cards
    boxAddress := "239.1.0.2"
    hostname := "room" }

/-- Answers as they should be. -/
def sampleAes67Answers : Aes67Answers :=
  { ptp := some (.obj [("status", .int 0)]), listed := true, listedAgain := true, start := true,
    stop := true, enable := true, disable := true, put := .taken }

/-! ### Off stays off -/

namespace NetworkBox

/-- The source is not asked for, no pass goes without having been shown it, and nobody else touches
its switch. -/
def leavesOff (b : NetworkBox) : NetworkStep → Prop
  | .pass a => b.blind a = false
  | .source r _ _ _ => r.enabled.getD b.cfg.manage = false
  | .daemon d => d.switch = b.daemon.switch
  | _ => True

lemma switch_postSource_of_off {b : NetworkBox} (hoff : b.daemon.switch = some false)
    {r : SourceRequest} (hr : r.enabled.getD b.cfg.manage = false) (alsaIds : List String)
    (saved : Bool) (a : Aes67Answers) :
    (b.postSource r alsaIds saved a).daemon.switch = some false := by
  have hmanage : (b.switched r alsaIds).manage = false := by
    simp only [switched, hr]
    split_ifs <;> simp_all
  simp only [postSource, hmanage, Bool.false_eq_true, if_false]
  split_ifs
  · exact hoff
  · exact Aes67Daemon.switch_setSourceEnabled_false b.daemon hoff
  · exact hoff

lemma step_leavesOff {b t : NetworkBox} {x : NetworkStep} (hoff : b.daemon.switch = some false)
    (hx : b.leavesOff x) (ht : b.step x = some t) : t.daemon.switch = some false := by
  rw [step.eq_def] at ht
  cases x with
  | pass a =>
      obtain rfl := Option.some.inj ht
      rw [switch_pass_of_off hoff, show b.blind a = false from hx]
      rfl
  | source r alsaIds saved a =>
      obtain rfl := Option.some.inj ht
      exact switch_postSource_of_off hoff hx alsaIds saved a
  | service start enable a =>
      obtain rfl := Option.some.inj ht
      rw [postService]
      split
      · exact hoff
      · simpa [Aes67Daemon.switch] using hoff
  | settings cfg =>
      obtain rfl := Option.some.inj ht
      exact hoff
  | daemon d =>
      obtain rfl := Option.some.inj ht
      exact (show d.switch = b.daemon.switch from hx).trans hoff
  | cards text =>
      obtain rfl := Option.some.inj ht
      exact hoff

/-- **A source that is off stays off** in every run in which it is not asked for, nobody else
touches it and no pass goes without having been shown it; and in each state of such a run that is
what a pass has to do to switch it on. -/
theorem off_stays_off {b t : NetworkBox} (hoff : b.daemon.switch = some false)
    (ht : Reach NetworkBox.step leavesOff (· = b) t) :
    t.daemon.switch = some false ∧
      ∀ a, (t.pass a).1.daemon.switch = some true ↔ t.blind a = true := by
  have h : t.daemon.switch = some false := by
    refine Reach.invariant (I := fun s => s.daemon.switch = some false) (fun s hs => ?_)
      (fun s x u hs hx hu => step_leavesOff hs hx hu) ht
    rw [hs]
    exact hoff
  refine ⟨h, fun a => ?_⟩
  rw [switch_pass_of_off h]
  cases t.blind a <;> simp

theorem off_stays_off_shown :
    ((sampleNetworkBox "" false).pass sampleAes67Answers).1.daemon.switch = some false :=
  (off_stays_off (b := sampleNetworkBox "" false) (by decide)
    (.next (a := .pass sampleAes67Answers) (.start rfl)
      (show (sampleNetworkBox "" false).blind sampleAes67Answers = false by decide) rfl)).1

end NetworkBox

/-! ### Passes on their own -/

namespace NetworkBox

/-- The box after so many passes. -/
def after (b : NetworkBox) (env : ℕ → Aes67Answers) (n : ℕ) : NetworkBox :=
  trace (fun a b => (b.pass a).1) env b n

variable {b : NetworkBox} {a : Aes67Answers} {env : ℕ → Aes67Answers}

@[simp] lemma after_zero : b.after env 0 = b := rfl

lemma after_succ (n : ℕ) : b.after env (n + 1) = ((b.after env n).pass (env n)).1 := rfl

/-- What no pass changes. -/
structure Alike (b t : NetworkBox) : Prop where
  cards : t.cards = b.cards
  boxAddress : t.boxAddress = b.boxAddress
  manage : t.cfg.manage = b.cfg.manage
  address : t.cfg.address = b.cfg.address
  channels : t.cfg.channels = b.cfg.channels
  installed : t.daemon.installed = b.daemon.installed

lemma Alike.refl (b : NetworkBox) : Alike b b := ⟨rfl, rfl, rfl, rfl, rfl, rfl⟩

lemma Alike.trans {c : NetworkBox} {t : NetworkBox} (h : Alike b t) (h' : Alike t c) :
    Alike b c :=
  ⟨h'.cards.trans h.cards, h'.boxAddress.trans h.boxAddress, h'.manage.trans h.manage,
    h'.address.trans h.address, h'.channels.trans h.channels, h'.installed.trans h.installed⟩

lemma alike_pass (b : NetworkBox) (a : Aes67Answers) : Alike b (b.pass a).1 := by
  rw [pass_eq]
  cases b.chosen a with
  | none => exact Alike.refl b
  | waitForClock => exact Alike.refl b
  | startService => exact ⟨rfl, rfl, rfl, rfl, rfl, Aes67Daemon.installed_setService _ _ _ _⟩
  | ensureSource => exact ⟨rfl, rfl, rfl, rfl, rfl, Aes67Daemon.installed_put _ _ _⟩
  | repointCard =>
      simp only [carryOut]
      split_ifs <;> exact ⟨rfl, rfl, rfl, rfl, rfl, rfl⟩

lemma Alike.present {t : NetworkBox} (h : Alike b t) : t.present = b.present := by
  rw [NetworkBox.present, NetworkBox.present, h.cards]

lemma Alike.cardDevice {t : NetworkBox} (h : Alike b t) : t.cardDevice = b.cardDevice := by
  rw [NetworkBox.cardDevice, NetworkBox.cardDevice, h.cards]

lemma Alike.right {t : NetworkBox} (h : Alike b t) : t.right = b.right := by
  funext s
  rw [NetworkBox.right, NetworkBox.right, h.channels, NetworkBox.address, NetworkBox.address,
    h.address, h.boxAddress]

lemma cfg_carryOut (x : Aes67Action) :
    (b.carryOut a x).1.cfg = b.cfg ∨
      x = .repointCard ∧ b.cardDevice ≠ "" ∧
        (b.carryOut a x).1.cfg =
          { b.cfg with
            alsaDevice := b.cardDevice
            previousDevice := if b.onCard then b.cfg.previousDevice else b.cfg.alsaDevice } := by
  cases x with
  | none => exact Or.inl rfl
  | waitForClock => exact Or.inl rfl
  | startService => exact Or.inl rfl
  | ensureSource => exact Or.inl rfl
  | repointCard =>
      simp only [carryOut]
      split
      · exact Or.inl rfl
      · rename_i hcard
        split
        · exact Or.inl rfl
        · exact Or.inr ⟨trivial, hcard, rfl⟩

lemma overSource_repointCard {x : Option Aes67Source} (h : b.overSource x = .repointCard) :
    b.onCard = false := by
  cases x with
  | none => simp [overSource] at h
  | some s =>
      rw [overSource] at h
      split_ifs at h with h1 h2 h3
      simpa using (Bool.and_eq_true_iff.mp h3).2

lemma overSource_ne_startService (x : Option Aes67Source) :
    b.overSource x ≠ .startService := by
  cases x with
  | none => simp [overSource]
  | some s =>
      rw [overSource]
      split_ifs <;> simp

lemma onCard_of_chosen (h : b.chosen a = .repointCard) : b.onCard = false := by
  rw [chosen_eq] at h
  split_ifs at h <;> exact overSource_repointCard h

/-- It is the daemon that is started exactly if it is stopped. -/
lemma chosen_startService :
    b.chosen a = .startService ↔ (b.watched && !b.daemon.active) = true := by
  rw [chosen_eq]
  cases b.watched <;> cases b.daemon.active <;> simp
  split_ifs <;> simp [overSource_ne_startService]

/-- **What a pass does to the settings**: it leaves them, or moves the device to the card. -/
lemma cfg_pass (b : NetworkBox) (a : Aes67Answers) :
    (b.pass a).1.cfg = b.cfg ∨
      b.cardDevice ≠ "" ∧ b.onCard = false ∧
        (b.pass a).1.cfg =
          { b.cfg with alsaDevice := b.cardDevice, previousDevice := b.cfg.alsaDevice } := by
  rw [pass_eq]
  rcases cfg_carryOut (b := b) (a := a) (b.chosen a) with h | ⟨hx, hne, h⟩
  · exact Or.inl h
  · have hon := onCard_of_chosen hx
    rw [hon] at h
    exact Or.inr ⟨hne, hon, h⟩

@[simp] lemma watched_pass (b : NetworkBox) (a : Aes67Answers) :
    (b.pass a).1.watched = b.watched := by
  have hal := alike_pass b a
  rcases cfg_pass b a with h | ⟨hne, -, h⟩
  · rw [watched, h, hal.installed, watched]
  · cases hw : b.watched with
    | true =>
        simp only [watched, Bool.and_eq_true, decide_eq_true_eq] at hw ⊢
        rw [h, hal.installed]
        exact ⟨⟨hw.1.1, hne⟩, hw.2⟩
    | false =>
        rw [pass_eq, chosen_eq, hw]
        exact hw

/-- No pass stops the daemon; one that finds it stopped starts it. -/
lemma active_pass (b : NetworkBox) (a : Aes67Answers) :
    (b.pass a).1.daemon.active = (b.daemon.active || (b.watched && a.start)) := by
  have hkept : ∀ x ≠ Aes67Action.startService,
      (b.carryOut a x).1.daemon.active = b.daemon.active := by
    intro x hx
    cases x with
    | none => rfl
    | waitForClock => rfl
    | startService => exact absurd rfl hx
    | ensureSource => exact Aes67Daemon.active_put _ _ _
    | repointCard =>
        simp only [carryOut]
        split_ifs <;> rfl
  rw [pass_eq]
  by_cases hx : b.chosen a = .startService
  · have hx' := chosen_startService.mp hx
    rw [Bool.and_eq_true, Bool.not_eq_true'] at hx'
    rw [hx, carryOut, Aes67Daemon.active_setService_start, hx'.1, Bool.true_and]
  · rw [hkept _ hx]
    rw [chosen_startService] at hx
    cases hac : b.daemon.active <;> simp_all

@[simp] lemma watched_after (b : NetworkBox) (env : ℕ → Aes67Answers) (n : ℕ) :
    (b.after env n).watched = b.watched := by
  induction n with
  | zero => rfl
  | succ n ih => rw [after_succ, watched_pass, ih]

/-! #### A stop -/

lemma active_after (b : NetworkBox) (env : ℕ → Aes67Answers) (n : ℕ) :
    (b.after env n).daemon.active = false ↔
      b.daemon.active = false ∧ (b.watched = false ∨ ∀ m < n, (env m).start = false) := by
  induction n with
  | zero => simp
  | succ n ih =>
      rw [after_succ, active_pass, watched_after, Bool.or_eq_false_iff, ih, Bool.and_eq_false_iff]
      constructor
      · rintro ⟨⟨h0, hw | hn⟩, hw' | hlast⟩
        · exact ⟨h0, Or.inl hw⟩
        · exact ⟨h0, Or.inl hw⟩
        · exact ⟨h0, Or.inl hw'⟩
        · refine ⟨h0, Or.inr fun m hm => ?_⟩
          rcases Nat.lt_succ_iff_lt_or_eq.mp hm with hm | rfl
          · exact hn m hm
          · exact hlast
      · rintro ⟨h0, hw | hn⟩
        · exact ⟨⟨h0, Or.inl hw⟩, Or.inl hw⟩
        · exact ⟨⟨h0, Or.inr fun m hm => hn m (by omega)⟩, Or.inr (hn n (by omega))⟩

/-- **A stop does not last**: after `POST /api/aes67/service` stopped the daemon, passes leave it
stopped exactly as long as none of them could start it, unless the network sound is not kept up at
all. -/
theorem stop_lasts_iff (hunlocked : b.cfg.locked = false) (hstop : a.stop = true) (enable : Bool)
    (env : ℕ → Aes67Answers) (n : ℕ) :
    ((b.postService false enable a).after env n).daemon.active = false ↔
      b.watched = false ∨ ∀ m < n, (env m).start = false := by
  have hcfg : (b.postService false enable a).watched = b.watched := by
    simp [postService, hunlocked, watched]
  have hactive : (b.postService false enable a).daemon.active = false := by
    simp only [postService, hunlocked, Aes67Daemon.setService, hstop]
    split_ifs <;> simp_all
  rw [active_after, hactive, hcfg]
  simp

theorem stop_lasts_iff_undone :
    (((sampleNetworkBox "" true).postService false false sampleAes67Answers).after
      (fun _ => sampleAes67Answers) 1).daemon.active ≠ false := by
  have h := stop_lasts_iff (b := sampleNetworkBox "" true) (a := sampleAes67Answers) rfl rfl false
    (fun _ => sampleAes67Answers) 1
  rw [Ne, h, not_or]
  exact ⟨by decide, fun hno => absurd (hno 0 (by omega)) (by decide)⟩

/-! #### Everything answered -/

/-- The daemon runs. -/
def Up (b : NetworkBox) : Prop := b.watched = true ∧ b.daemon.active = true

/-- And its source is there, and is right unless it is off. -/
def Right (b : NetworkBox) : Prop :=
  b.Up ∧ ∃ s, b.daemon.source? = some s ∧ (s.enabled = true → b.right s = true)

/-- And the sound goes to the card, as far as there is anything to send. -/
def Placed (b : NetworkBox) : Prop :=
  b.Right ∧ (b.daemon.switch = some false ∨ b.present = false ∨ b.onCard = true ∨
    b.cfg.alsaDevice = b.cardDevice)

lemma Right.overSource (h : b.Right) :
    b.overSource b.daemon.source? =
      if b.daemon.switch = some false then .none
      else if b.present && !b.onCard then .repointCard
      else .none := by
  obtain ⟨-, s, hs, hright⟩ := h
  rw [hs, NetworkBox.overSource, Aes67Daemon.switch, hs]
  cases hen : s.enabled with
  | false => simp [hen]
  | true => simp [hen, hright hen]

end NetworkBox

end Multisite
