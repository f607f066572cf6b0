import Multisite.Appliance.Upkeep

/-!
Where the room's sound goes once it was put on the network.

`POST /api/aes67/source` hands the device of the card to `aes67_pick_alsa_device`, which takes the
card's name.  It finds no device of that name, and answers with one that does not exist.

* `pickAlsaDevice_cardDevice`: what it answers;
* `room_device_lost`: from then on the box's device is that one or the card's.
-/

namespace Multisite

open Lib

/-! ### The device that is picked -/

/-- No device is on a card that is called by its device. -/
lemma deviceIsCard_plughw (device card : String) :
    aes67DeviceIsCard device ("plughw:CARD=" ++ card) = false := by
  have hcolon : ':' ∈ ("plughw:CARD=" ++ card).toList := by
    rw [String.toList_append]
    exact List.mem_append_left _ (by decide)
  rw [aes67DeviceIsCard]
  split
  · rfl
  · split
    · rw [decide_eq_false_iff_not]
      intro heq
      rw [← heq] at hcolon
      have := List.mem_takeWhile_imp hcolon
      simp at this
    · split
      · rfl
      · rename_i hno
        rw [decide_eq_false_iff_not]
        intro heq
        rw [heq] at hno
        exact hno hcolon

lemma pickAlsaDevice_plughw (configured card : String) (alsaIds : List String) :
    aes67PickAlsaDevice configured ("plughw:CARD=" ++ card) alsaIds =
      "hw:CARD=" ++ ("plughw:CARD=" ++ card) ++ ",DEV=0" := by
  have hnone : aes67FindDevice alsaIds ("plughw:CARD=" ++ card) = none := by
    rw [aes67FindDevice, List.findIdx?_eq_none_iff]
    exact fun id _ => deviceIsCard_plughw id card
  have hne : "plughw:CARD=" ++ card ≠ "" := by
    intro h0
    have := congrArg String.length h0
    simp [String.length_append] at this
  rw [aes67PickAlsaDevice, if_neg hne, hnone]

namespace NetworkBox

/-- The device that the switch picks. -/
def spoilt (b : NetworkBox) : String := "hw:CARD=" ++ b.cardDevice ++ ",DEV=0"

variable {b t : NetworkBox}

lemma cardDevice_eq (hcard : b.cardDevice ≠ "") : ∃ card, b.cardDevice = "plughw:CARD=" ++ card := by
  simp only [cardDevice, aes67CardDevice] at hcard ⊢
  split at hcard
  · exact absurd rfl hcard
  · rename_i hid
    exact ⟨_, by rw [if_neg hid]⟩

/-- Whatever ALSA lists, it is one that no box has. -/
lemma pickAlsaDevice_cardDevice (hcard : b.cardDevice ≠ "") (configured : String)
    (alsaIds : List String) :
    aes67PickAlsaDevice configured b.cardDevice alsaIds = b.spoilt := by
  obtain ⟨card, hform⟩ := cardDevice_eq hcard
  rw [spoilt, hform, pickAlsaDevice_plughw]

/-- It is not on the card. -/
lemma deviceIsCard_spoilt (hcard : b.cardDevice ≠ "") :
    aes67DeviceIsCard b.spoilt kAes67CardName = false := by
  obtain ⟨card, hform⟩ := cardDevice_eq hcard
  have htext : b.spoilt.toList =
      "hw:CARD=plughw:".toList ++ ("CARD=".toList ++ (card.toList ++ ",DEV=0".toList)) := by
    rw [spoilt, hform]
    simp [String.toList_append]
  have hfirst : firstIn "CARD=".toList b.spoilt.toList = some 3 := by
    rw [htext]
    exact firstIn_append (by decide) _
  have hname : (b.spoilt.toList.drop (3 + 5)).takeWhile (fun c => c ≠ ',' && c ≠ ':') =
      "plughw".toList := by
    rw [htext, show "hw:CARD=plughw:".toList = "hw:CARD=".toList ++ "plughw:".toList by decide,
      List.append_assoc, show 3 + 5 = "hw:CARD=".toList.length by decide, List.drop_left]
    simp
  rw [aes67DeviceIsCard]
  split
  · rfl
  · simp only [hfirst, hname]
    decide

lemma spoilt_ne (b : NetworkBox) : b.spoilt ≠ "" := by
  intro h0
  have := congrArg String.length h0
  simp [spoilt, String.length_append] at this

/-! ### Runs -/

/-- The card stays where it is, and no other settings are saved. -/
def keepsCards (_ : NetworkBox) : NetworkStep → Prop
  | .settings _ => False
  | .cards _ => False
  | _ => True

/-- The device of a box that is lost for the room: what the switch picked, or the card, with nothing
else to go back to. -/
structure Lost (b t : NetworkBox) : Prop where
  cards : t.cards = b.cards
  device : t.cfg.alsaDevice = b.spoilt ∨
    t.cfg.alsaDevice = b.cardDevice ∧ (t.onCard = true → t.cfg.previousDevice = b.spoilt)

lemma cards_postSource (b : NetworkBox) (r : SourceRequest) (alsaIds : List String) (saved : Bool)
    (a : Aes67Answers) : (b.postSource r alsaIds saved a).cards = b.cards := by
  simp only [postSource]
  split_ifs <;> rfl

lemma cfg_postSource (b : NetworkBox) (r : SourceRequest) (alsaIds : List String) (saved : Bool)
    (a : Aes67Answers) :
    (b.postSource r alsaIds saved a).cfg =
      if b.cfg.locked || !saved then b.cfg else b.switched r alsaIds := by
  simp only [postSource]
  split_ifs <;> rfl

/-- The switch, with the card there: on, it picks the device, and remembers the one before. -/
lemma switched_on (hcard : b.cardDevice ≠ "") {r : SourceRequest}
    (hon : r.enabled.getD b.cfg.manage = true) (alsaIds : List String) :
    (b.switched r alsaIds).alsaDevice = b.spoilt ∧
      ((b.switched r alsaIds).previousDevice =
        if b.cfg.alsaDevice = b.spoilt then b.cfg.previousDevice else b.cfg.alsaDevice) := by
  have hpick := pickAlsaDevice_cardDevice hcard b.cfg.alsaDevice alsaIds
  rw [cardDevice] at hcard hpick
  simp only [switched, hon, if_true, hpick]
  by_cases hsame : b.cfg.alsaDevice = b.spoilt <;> simp [hsame, hcard]

/-- And off, it goes back to what it remembers, if the sound is on the card. -/
lemma switched_off {r : SourceRequest} (hoff : r.enabled.getD b.cfg.manage = false)
    (alsaIds : List String) :
    (b.switched r alsaIds).alsaDevice =
      if b.onCard then (if b.cfg.previousDevice = "" then "default" else b.cfg.previousDevice)
      else b.cfg.alsaDevice := by
  have hoc : aes67DeviceIsCard b.cfg.alsaDevice kAes67CardName = b.onCard := rfl
  simp only [switched, hoff, Bool.false_eq_true, if_false]
  rw [hoc]
  cases b.onCard <;> rfl

lemma Lost.cardDevice (h : Lost b t) : t.cardDevice = b.cardDevice := by
  rw [NetworkBox.cardDevice, h.cards, NetworkBox.cardDevice]

lemma Lost.spoilt (h : Lost b t) : t.spoilt = b.spoilt := by
  rw [NetworkBox.spoilt, h.cardDevice, NetworkBox.spoilt]

lemma Lost.pass (h : Lost b t) (a : Aes67Answers) : Lost b (t.pass a).1 := by
  refine ⟨(alike_pass t a).cards.trans h.cards, ?_⟩
  rcases cfg_pass t a with hcfg | ⟨-, hon, hcfg⟩
  · rw [onCard, hcfg]
    exact h.device
  · rw [onCard, hcfg, h.cardDevice]
    refine Or.inr ⟨rfl, fun hown => ?_⟩
    -- a device on the card is moved only where it is not the card's own
    rcases h.device with hd | ⟨hd, -⟩
    · exact hd
    · rw [onCard, hd] at hon
      exact absurd (hown.symm.trans hon) (by simp)

lemma Lost.postSource (hcard : b.cardDevice ≠ "") (h : Lost b t) (r : SourceRequest)
    (alsaIds : List String) (saved : Bool) (a : Aes67Answers) :
    Lost b (t.postSource r alsaIds saved a) := by
  have hcard' : t.cardDevice ≠ "" := by rwa [h.cardDevice]
  refine ⟨(cards_postSource t r alsaIds saved a).trans h.cards, ?_⟩
  rw [onCard, cfg_postSource]
  split
  · exact h.device
  · cases hon : r.enabled.getD t.cfg.manage with
    | true =>
        left
        rw [(switched_on hcard' hon alsaIds).1, h.spoilt]
    | false =>
        rw [switched_off hon alsaIds]
        split
        · rename_i hoc
          left
          rcases h.device with hd | ⟨-, hprev⟩
          · rw [onCard, hd, deviceIsCard_spoilt hcard] at hoc
            exact absurd hoc (by simp)
          · rw [hprev hoc, if_neg (spoilt_ne b)]
        · rename_i hoc
          rcases h.device with hd | ⟨hd, -⟩
          · exact Or.inl hd
          · exact Or.inr ⟨hd, fun hown => absurd hown hoc⟩

lemma Lost.step (hcard : b.cardDevice ≠ "") {u : NetworkBox} {x : NetworkStep} (h : Lost b t)
    (hx : t.keepsCards x) (hu : t.step x = some u) : Lost b u := by
  rw [step.eq_def] at hu
  cases x with
  | pass a =>
      obtain rfl := Option.some.inj hu
      exact h.pass a
  | source r alsaIds saved a =>
      obtain rfl := Option.some.inj hu
      exact h.postSource hcard r alsaIds saved a
  | service start enable a =>
      obtain rfl := Option.some.inj hu
      rw [postService]
      split
      · exact h
      · exact ⟨h.cards, h.device⟩
  | settings cfg => exact absurd hx (by simp [keepsCards])
  | daemon d =>
      obtain rfl := Option.some.inj hu
      exact ⟨h.cards, h.device⟩
  | cards text => exact absurd hx (by simp [keepsCards])

/-- **The room's device is lost**: from the moment the network sound is switched on with the card
there, in every run of passes, of switches on and off and of changes to the daemon, the player's
device is one that no box has, or the card. -/
theorem room_device_lost (hunlocked : b.cfg.locked = false) (hcard : b.cardDevice ≠ "")
    {r : SourceRequest} (hon : r.enabled.getD b.cfg.manage = true) (alsaIds : List String)
    (a : Aes67Answers)
    (ht : Reach NetworkBox.step keepsCards (· = b.postSource r alsaIds true a) t) :
    t.cfg.alsaDevice = b.spoilt ∨ t.cfg.alsaDevice = b.cardDevice := by
  have hlost : Lost b t := by
    refine Reach.invariant (I := Lost b) (fun s hs => ?_)
      (fun s x u hs hx hu => hs.step hcard hx hu) ht
    rw [hs]
    refine ⟨cards_postSource b r alsaIds true a, Or.inl ?_⟩
    rw [cfg_postSource, hunlocked]
    exact (switched_on hcard hon alsaIds).1
  exact hlost.device.imp_right And.left

/-- On and off again, with the room's device at the start: it does not come back. -/
theorem room_device_lost_shown :
    (((sampleNetworkBox " 0 [RAVENNA        ]: x" false).postSource { enabled := some true }
      ["hw:0"] true sampleAes67Answers).postSource { enabled := some false }
      ["hw:0"] true sampleAes67Answers).cfg.alsaDevice ≠ "hw:0" := by
  intro hback
  have h := room_device_lost (b := sampleNetworkBox " 0 [RAVENNA        ]: x" false) rfl
    (by decide) (r := { enabled := some true }) rfl ["hw:0"] sampleAes67Answers
    (.next (a := .source { enabled := some false } ["hw:0"] true sampleAes67Answers) (.start rfl)
      trivial rfl)
  rw [hback] at h
  revert h
  decide

end NetworkBox

end Multisite
