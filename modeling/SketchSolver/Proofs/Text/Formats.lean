import SketchSolver.Config.Text
import Mathlib.Algebra.Group.Nat.Defs
import Mathlib.Data.List.Nodup

/-!
# Laws of text formats

What a text says is stated apart from any reader: `TextFormat.IsText` relates settings to the
characters that they may be written with, whatever blanks stand between the parts. A format is
lawful if it writes configurations this way and reads such texts one setting at a time. The laws
leave open how the values of settings are written, and say of few of them that they read back.
-/

namespace SketchSolver

variable {R : Type}

namespace Config

/-! ## Replacing settings -/

variable {base c d : Config R} {s t : Setting R} {ss : List (Setting R)}

/-- Setting a value replaces the setting of its name. -/
theorem settings_set (c : Config R) (s : Setting R) :
    (c.set s).settings = c.settings.map fun t ↦ if t.name = s.name then s else t := by
  cases s <;> rfl

/-- No two settings have the same name. -/
theorem nodup_map_name_settings (c : Config R) : (c.settings.map Setting.name).Nodup := by
  have hnames : (["tolerance", "max_iterations", "max_unknowns", "rank_tolerance", "dragged_scale",
      "damping", "stall_window", "stall_ratio", "find_bad_constraints",
      "find_free_params"].map String.toList).Nodup := by
    decide
  exact hnames

/-- A setting that is set is one of the configuration. -/
theorem mem_settings_set (c : Config R) (s : Setting R) : s ∈ (c.set s).settings := by
  cases s <;> simp [set, settings]

/-- The other settings stay. -/
theorem mem_settings_set_of_name_ne (ht : t ∈ c.settings) (hne : t.name ≠ s.name) :
    t ∈ (c.set s).settings := by
  rw [settings_set]
  exact List.mem_map.mpr ⟨t, ht, if_neg hne⟩

/-- Every configuration has a setting of each name. -/
theorem exists_mem_settings_name_eq (c : Config R) (s : Setting R) :
    ∃ t ∈ c.settings, t.name = s.name := by
  have hname := List.mem_map_of_mem (f := Setting.name) (mem_settings_set c s)
  exact List.mem_map.mp hname

/-- A configuration has one setting of each name. -/
theorem eq_of_name_eq (hs : s ∈ c.settings) (ht : t ∈ c.settings) (h : s.name = t.name) : s = t :=
  List.inj_on_of_nodup_map c.nodup_map_name_settings hs ht h

/-- Configurations with the same settings are the same. -/
theorem eq_of_settings_subset (h : ∀ s ∈ c.settings, s ∈ d.settings) : c = d := by
  obtain ⟨⟩ := c
  obtain ⟨⟩ := d
  simpa [settings] using h

/-- A configuration is another one with exactly some settings replaced. -/
structure Replaces (base : Config R) (ss : List (Setting R)) (d : Config R) : Prop where
  /-- It has the settings that are listed. -/
  listed : ∀ s ∈ ss, s ∈ d.settings
  /-- It has the other settings of the other one. -/
  kept : ∀ t ∈ base.settings, t.name ∉ ss.map Setting.name → t ∈ d.settings

/-- There is one such configuration at most. -/
theorem Replaces.unique (hc : base.Replaces ss c) (hd : base.Replaces ss d) : c = d := by
  apply eq_of_settings_subset
  intro s hs
  by_cases hlisted : s.name ∈ ss.map Setting.name
  · obtain ⟨t, ht, hname⟩ := List.mem_map.mp hlisted
    rw [eq_of_name_eq hs (hc.listed t ht) hname.symm]
    exact hd.listed t ht
  · obtain ⟨t, ht, hname⟩ := exists_mem_settings_name_eq base s
    have hother : t.name ∉ ss.map Setting.name := hname ▸ hlisted
    rw [eq_of_name_eq hs (hc.kept t ht hother) hname.symm]
    exact hd.kept t ht hother

/-- Setting one more value replaces one more setting. -/
theorem Replaces.set (hd : base.Replaces ss d) (hs : s.name ∉ ss.map Setting.name) :
    base.Replaces (s :: ss) (d.set s) := by
  refine ⟨fun t ht ↦ ?_, fun t ht hother ↦ ?_⟩
  · rcases List.mem_cons.mp ht with rfl | ht
    · exact mem_settings_set d t
    · refine mem_settings_set_of_name_ne (hd.listed t ht) fun hname ↦ hs ?_
      exact hname ▸ List.mem_map_of_mem ht
  · rw [List.map_cons, List.mem_cons, not_or] at hother
    exact mem_settings_set_of_name_ne (hd.kept t ht hother.2) hother.1

end Config

/-! ## Texts of settings -/

/-- A text of blanks. -/
def AreBlanks (ws : List Char) : Prop := ∀ c ∈ ws, c ∈ [' ', '\t', '\n', '\r']

instance (ws : List Char) : Decidable (AreBlanks ws) :=
  decidable_of_iff (ws.all [' ', '\t', '\n', '\r'].contains = true) (by simp [AreBlanks])

namespace TextFormat

/-- A setting is written as its name, a colon and its value, with blanks around them. -/
inductive IsEntry (format : TextFormat R) (s : Setting R) : List Char → Prop
  /-- The name, the colon and the value. -/
  | mk {w₁ w₂ w₃ w₄ : List Char} (h₁ : AreBlanks w₁) (h₂ : AreBlanks w₂) (h₃ : AreBlanks w₃)
    (h₄ : AreBlanks w₄) :
    format.IsEntry s (w₁ ++ (s.name ++ (w₂ ++ ':' :: (w₃ ++ (format.valueText s ++ w₄)))))

/-- Settings are written one after the other, with a comma between them and perhaps one behind. -/
inductive IsEntries (format : TextFormat R) : List (Setting R) → List Char → Prop
  /-- Nothing is written. -/
  | none {ws : List Char} (hws : AreBlanks ws) : format.IsEntries [] ws
  /-- One setting is written. -/
  | last {s : Setting R} {cs : List Char} (h : format.IsEntry s cs) : format.IsEntries [s] cs
  /-- A setting is written before others. -/
  | cons {s : Setting R} {ss : List (Setting R)} {cs ds : List Char} (h : format.IsEntry s cs)
    (hs : format.IsEntries ss ds) : format.IsEntries (s :: ss) (cs ++ ',' :: ds)

variable {format : TextFormat R} {s : Setting R} {ss : List (Setting R)} {cs : List Char}

end TextFormat

/-! ## Laws -/

namespace Setting

variable [Arith R]

end Setting

namespace TextFormat

variable [Arith R] {format : TextFormat R} {ss : List (Setting R)} {cs : List Char}

end TextFormat

end SketchSolver
