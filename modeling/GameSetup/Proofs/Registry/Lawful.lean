import GameSetup.Proofs.Setting.Acceptance
import GameSetup.Settings.Basic

/-!
# Stores that keep their settings apart

A store of settings is lawful if reading into a place or resetting it does to the setting there what
it would do to the setting by itself, and leaves every other place alone. The plain list is lawful,
and so are the settings of the game.
-/

namespace GameSetup

open SettingStore

/-- Stores in which every place stands for itself. -/
class LawfulStore (σ : Type) (ι : outParam Type) [SettingStore σ ι] : Prop where
  /-- A text is read as the setting at the place reads it. -/
  map_read {store : σ} {place : ι} {setting : AnySetting} (text : String) :
    setting? store place = some setting →
      (read store place text).map (setting? · place) = (setting.read text).map some
  /-- Reading leaves the other places alone. -/
  setting?_of_read {store next : σ} {place other : ι} {text : String} :
    read store place text = .ok next → other ≠ place →
      setting? next other = setting? store other
  /-- A reset is that of the setting at the place. -/
  setting?_reset_self (store : σ) (place : ι) :
    setting? (reset store place) place = (setting? store place).map AnySetting.reset
  /-- A reset leaves the other places alone. -/
  setting?_reset_of_ne (store : σ) {place other : ι} :
    other ≠ place → setting? (reset store place) other = setting? store other
  /-- A store is nothing but what is in its places. -/
  ext {store other : σ} : (∀ place, setting? store place = setting? other place) → store = other

/-- Reading into a list keeps its other places. -/
instance : LawfulStore (List AnySetting) Nat where
  map_read {store place setting} text h := by
    change store[place]? = some setting at h
    obtain ⟨hplace, -⟩ := List.getElem?_eq_some_iff.mp h
    change Except.map _ (match store[place]? with | none => _ | some setting => _) = _
    rw [h]
    cases hread : setting.read text with
    | error cause => simp [hread, Except.map]
    | ok next =>
      simp only [hread, Except.map]
      exact congrArg Except.ok (List.getElem?_set_self hplace)
  setting?_of_read {store next place other text} h hne := by
    change (match store[place]? with | none => _ | some setting => _) = _ at h
    cases hplace : store[place]? with
    | none =>
      rw [hplace] at h
      cases h
      rfl
    | some setting =>
      rw [hplace] at h
      change (setting.read text).map (store.set place) = _ at h
      obtain ⟨read, -, rfl⟩ := exists_of_map_eq_ok h
      exact List.getElem?_set_ne (Ne.symm hne)
  setting?_reset_self store place := List.getElem?_modify_eq AnySetting.reset place store
  setting?_reset_of_ne store place other hne :=
    List.getElem?_modify_ne AnySetting.reset store (Ne.symm hne)
  ext h := List.ext_getElem? h

/-- Changing a result twice is changing it once. -/
theorem map_map_eq_map {ε α β γ : Type} {result : Except ε α} {put : α → β} {get : β → γ}
    {wrap : α → γ} (h : ∀ inner, get (put inner) = wrap inner) :
    (result.map put).map get = result.map wrap := by
  cases result with
  | error cause => rfl
  | ok inner => exact congrArg Except.ok (h inner)

namespace Bundle

/-- A text is read as the setting at the place reads it. -/
theorem map_read (bundle : Bundle) (field : Field) (text : String) :
    (bundle.read field text).map (·.setting field) = (bundle.setting field).read text := by
  cases field <;> exact map_map_eq_map fun _ => rfl

/-- Reading leaves the other places alone. -/
theorem setting_of_read {bundle next : Bundle} {field other : Field} {text : String}
    (h : bundle.read field text = .ok next) (hne : other ≠ field) :
    next.setting other = bundle.setting other := by
  cases field <;>
    (obtain ⟨read, -, rfl⟩ := exists_of_map_eq_ok h
     cases other <;> first | rfl | exact absurd rfl hne)

/-- A reset is that of the setting at the place. -/
theorem setting_reset_self (bundle : Bundle) (field : Field) :
    (bundle.reset field).setting field = (bundle.setting field).reset := by
  cases field <;> rfl

/-- A reset leaves the other places alone. -/
theorem setting_reset_of_ne (bundle : Bundle) {field other : Field} (hne : other ≠ field) :
    (bundle.reset field).setting other = bundle.setting other := by
  cases field <;> cases other <;> first | rfl | exact absurd rfl hne

/-- A bundle is nothing but its eight settings. -/
theorem ext_setting {bundle other : Bundle}
    (h : ∀ field, bundle.setting field = other.setting field) : bundle = other := by
  obtain ⟨windowMode, software, mono, grabmouse, antialias, monitor, windowSize, gameSize⟩ := bundle
  have hwindowMode := AnySetting.windowMode.inj (h .windowMode)
  have hsoftware := AnySetting.flag.inj (h .software)
  have hmono := AnySetting.flag.inj (h .mono)
  have hgrabmouse := AnySetting.flag.inj (h .grabmouse)
  have hantialias := AnySetting.flag.inj (h .antialias)
  have hmonitor := AnySetting.number.inj (h .monitor)
  have hwindowSize := AnySetting.resolution.inj (h .windowSize)
  have hgameSize := AnySetting.resolution.inj (h .gameSize)
  cases other
  subst hwindowMode hsoftware hmono hgrabmouse hantialias hmonitor hwindowSize hgameSize
  rfl

end Bundle

namespace Settings

/-- The bundle that was put in is there. -/
@[simp] theorem bundle_withBundle_self (settings : Settings) (mode : RunMode) (bundle : Bundle) :
    (settings.withBundle mode bundle).bundle mode = bundle := by
  cases mode <;> rfl

/-- The bundle of the other mode stays. -/
theorem bundle_withBundle_of_ne (settings : Settings) {mode other : RunMode} (bundle : Bundle)
    (hne : other ≠ mode) :
    (settings.withBundle mode bundle).bundle other = settings.bundle other := by
  cases mode <;> cases other <;> first | rfl | exact absurd rfl hne

/-- The data directory belongs to no bundle. -/
@[simp] theorem datadir_withBundle (settings : Settings) (mode : RunMode) (bundle : Bundle) :
    (settings.withBundle mode bundle).datadir = settings.datadir := by
  cases mode <;> rfl

end Settings

/-- Another bundle leaves the settings outside it alone. -/
theorem Settings.setting?_withBundle_of_ne (settings : Settings) {mode : RunMode} {bundle : Bundle}
    {field : Bundle.Field} {slot : Settings.Slot} (hne : slot ≠ .bundle mode field)
    (hbundle : ∀ other, other ≠ field →
      bundle.setting other = (settings.bundle mode).setting other) :
    setting? (settings.withBundle mode bundle) slot = setting? settings slot := by
  cases slot with
  | datadir => exact congrArg (some ∘ AnySetting.text) (datadir_withBundle settings mode bundle)
  | bundle otherMode other =>
    refine congrArg some ?_
    by_cases hmode : otherMode = mode
    · subst hmode
      rw [bundle_withBundle_self]
      exact hbundle other fun hfield => hne (hfield ▸ rfl)
    · rw [bundle_withBundle_of_ne settings bundle hmode]

/-- The settings of the game are lawful. -/
instance : LawfulStore Settings Settings.Slot where
  map_read {store place setting} text h := by
    cases place with
    | datadir =>
      cases h
      change ((store.datadir.read text).map _).map _ = ((store.datadir.read text).map _).map some
      cases store.datadir.read text <;> rfl
    | bundle mode field =>
      cases h
      change (((store.bundle mode).read field text).map _).map _ = _
      rw [← Bundle.map_read]
      cases (store.bundle mode).read field text with
      | error cause => rfl
      | ok bundle =>
        change Except.ok (some (((store.withBundle mode bundle).bundle mode).setting field)) = _
        rw [Settings.bundle_withBundle_self]
        rfl
  setting?_of_read {store next place other text} h hne := by
    cases place with
    | datadir =>
      obtain ⟨read, -, rfl⟩ := exists_of_map_eq_ok h
      cases other with
      | datadir => exact absurd rfl hne
      | bundle mode field => cases mode <;> rfl
    | bundle mode field =>
      obtain ⟨bundle, hread, rfl⟩ := exists_of_map_eq_ok h
      exact store.setting?_withBundle_of_ne hne fun other hother =>
        Bundle.setting_of_read hread hother
  setting?_reset_self store place := by
    cases place with
    | datadir => rfl
    | bundle mode field =>
      change some (((store.withBundle mode _).bundle mode).setting field) = _
      rw [Settings.bundle_withBundle_self, Bundle.setting_reset_self]
      rfl
  setting?_reset_of_ne store place other hne := by
    cases place with
    | datadir =>
      cases other with
      | datadir => exact absurd rfl hne
      | bundle mode field => cases mode <;> rfl
    | bundle mode field =>
      exact store.setting?_withBundle_of_ne hne fun other hother =>
        Bundle.setting_reset_of_ne (store.bundle mode) hother
  ext {store other} h := by
    have hdatadir := AnySetting.text.inj (Option.some.inj (h .datadir))
    have hgame := Bundle.ext_setting fun field => Option.some.inj (h (.bundle .game field))
    have hedit := Bundle.ext_setting fun field => Option.some.inj (h (.bundle .edit field))
    cases store
    cases other
    cases hdatadir
    cases hgame
    cases hedit
    rfl

end GameSetup
