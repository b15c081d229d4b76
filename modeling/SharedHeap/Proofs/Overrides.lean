import SharedHeap.Config.Environment

/-! # Overrides from the environment

Two variables override a configuration: a number, read with the blanks around it taken off, and a flag,
read as it stands. A text that is not acceptable is reported whole. The number is looked at first, so
when it cannot be read the flag is not looked at, and when only the flag cannot be read the number is
already in place. -/

namespace SharedHeap.Config

variable {α : Type} {Says : String → α → Prop} {read : String → Option α} {name : String}
  {text : Option String} {current a : α} {c d : Config} {env : Environment} {e : Error}

/-! ## Texts -/

/-- The text of a step: white space around the decimal digits of a number, which has at most one plus
before it and is below the largest there is. -/
def StepText (s : String) (n : Nat) : Prop :=
  ∃ before sign digits after : List Char,
    s.toList = before ++ (sign ++ digits) ++ after ∧
      (∀ c ∈ before, Text.WhiteSpace c) ∧ (∀ c ∈ after, Text.WhiteSpace c) ∧
      sign ∈ [[], ['+']] ∧ digits ≠ [] ∧ (∀ c ∈ digits, c.isDigit = true) ∧
      Nat.ofDigitChars 10 digits 0 = n ∧ n < UInt64.size

def flagWords : Bool → List String
  | true => ["1", "true", "yes"]
  | false => ["0", "false", "no"]

/-- The text of a flag: one of its words, in any ASCII case. -/
def FlagText (s : String) (b : Bool) : Prop := s.toLower ∈ flagWords b

instance (s : String) (b : Bool) : Decidable (FlagText s b) :=
  inferInstanceAs (Decidable (_ ∈ _))

theorem isBlank_of_digit {c : Char} (h : c.isDigit = true) : Text.isBlank c = false := by
  simp only [Char.isDigit, Bool.and_eq_true, decide_eq_true_eq] at h
  have hlow : '0'.toNat ≤ c.toNat := h.1
  have hhigh : c.toNat ≤ '9'.toNat := h.2
  have hzero : '0'.toNat = 48 := rfl
  have hnine : '9'.toNat = 57 := rfl
  rw [Bool.eq_false_iff, ne_eq, Text.isBlank_iff]
  simp only [Text.WhiteSpace, List.mem_cons, List.not_mem_nil, exists_eq_or_imp, or_false,
    exists_eq_left]
  omega

theorem readStep?_eq_some_iff (s : String) (n : Nat) : readStep? s = some n ↔ StepText s n := by
  simp only [readStep?, Option.filter_eq_some_iff, decide_eq_true_eq, Text.readUnsigned?_eq_some_iff,
    Text.readDecimal?_eq_some_iff]
  constructor
  · rintro ⟨⟨sign, digits, htrim, hsign, hne, hdigits, hn⟩, hlt⟩
    obtain ⟨before, after, hs, hb, ha⟩ := Text.exists_eq_append_trim s.toList
    rw [htrim] at hs
    exact ⟨before, sign, digits, after, hs, fun c hc => Text.isBlank_iff.mp (hb c hc),
      fun c hc => Text.isBlank_iff.mp (ha c hc), hsign, hne, hdigits, hn, hlt⟩
  · rintro ⟨before, sign, digits, after, hs, hb, ha, hsign, hne, hdigits, hn, hlt⟩
    refine ⟨⟨sign, digits, ?_, hsign, hne, hdigits, hn⟩, hlt⟩
    rw [hs]
    refine Text.trim_append (fun c hc => Text.isBlank_iff.mpr (hb c hc))
      (fun c hc => Text.isBlank_iff.mpr (ha c hc)) (by simp [hne]) fun c hc => ?_
    rcases List.mem_append.mp hc with hm | hm
    · have hplus : c = '+' := by
        simp only [List.mem_cons, List.not_mem_nil, or_false] at hsign
        rcases hsign with rfl | rfl
        · cases hm
        · exact List.mem_singleton.mp hm
      rw [hplus]
      decide
    · exact isBlank_of_digit (hdigits c hm)

/-- The words are in ASCII, and the Kelvin sign has the lower case of none of their characters. -/
theorem flagWords_ascii (b : Bool) :
    ∀ word ∈ flagWords b, ∀ c ∈ word.toList, c.toNat < 128 ∧ c ≠ 'k' := by
  have hall : (flagWords b).all (·.toList.all fun c => c.toNat < 128 && c != 'k') = true := by
    cases b <;> decide
  simpa only [List.all_eq_true, Bool.and_eq_true, decide_eq_true_eq, bne_iff_ne] using hall

theorem any_lowersTo_iff {s : String} {b : Bool} :
    (flagWords b).any (Text.lowersTo s) = true ↔ FlagText s b := by
  rw [List.any_eq_true, FlagText]
  constructor
  · rintro ⟨word, hw, h⟩
    rwa [(Text.lowersTo_iff (flagWords_ascii b word hw)).mp h]
  · intro h
    exact ⟨_, h, (Text.lowersTo_iff (flagWords_ascii b _ h)).mpr rfl⟩

theorem FlagText.unique {s : String} {b b' : Bool} (h : FlagText s b) (h' : FlagText s b') :
    b = b' := by
  have hwords : ∀ b b', ∀ word ∈ flagWords b, word ∈ flagWords b' → b = b' := by
    decide +kernel
  exact hwords b b' _ h h'

theorem readFlag?_eq_some_iff (s : String) (b : Bool) : readFlag? s = some b ↔ FlagText s b := by
  have hread : readFlag? s =
      if (flagWords true).any (Text.lowersTo s) then some true
      else if (flagWords false).any (Text.lowersTo s) then some false else none := rfl
  rw [hread]
  by_cases ht : FlagText s true
  · rw [if_pos (any_lowersTo_iff.mpr ht), Option.some.injEq]
    exact ⟨fun he => he ▸ ht, ht.unique⟩
  rw [if_neg (mt any_lowersTo_iff.mp ht)]
  by_cases hf : FlagText s false
  · rw [if_pos (any_lowersTo_iff.mpr hf), Option.some.injEq]
    exact ⟨fun he => he ▸ hf, hf.unique⟩
  · rw [if_neg (mt any_lowersTo_iff.mp hf)]
    refine iff_of_false nofun ?_
    cases b <;> assumption

/-- Whatever the lower case of a text is, it is a word only if the text is that word in some ASCII
case. -/
theorem flagText_iff_of_lowerCase {s : String} {low : List Char} {b : Bool}
    (h : Text.LowerCase s.toList low) :
    String.ofList low ∈ flagWords b ↔ FlagText s b := by
  have hone : ∀ word ∈ flagWords b, String.ofList low = word ↔ s.toLower = word := by
    intro word hw
    rw [← String.toList_inj, String.toList_ofList, h.eq_iff (flagWords_ascii b word hw),
      ← Text.toList_toLower, String.toList_inj]
  rw [FlagText]
  exact ⟨fun hl => (hone _ hl).mp rfl ▸ hl, fun hs => (hone _ hs).mpr rfl ▸ hs⟩

/-! ## Settings -/

/-- A setting after its variable was looked at: what the text says, if there is one. -/
def Overridden (Says : String → α → Prop) (text : Option String) (current a : α) : Prop :=
  text.elim (a = current) (Says · a)

theorem Overridden.again (h : Overridden Says text current a) : Overridden Says text a a := by
  cases text with
  | none => rfl
  | some s => exact h

theorem exists_overridden_iff (Says : String → α → Prop) (text : Option String) (current : α) :
    (∃ a, Overridden Says text current a) ↔ ∀ s, text = some s → ∃ a, Says s a := by
  cases text with
  | none => simp [Overridden]
  | some s => simp [Overridden]

theorem override_of_overridden (hr : ∀ s a, read s = some a ↔ Says s a)
    (h : Overridden Says text current a) : override name text read current = .ok a := by
  cases text with
  | none => exact congrArg Except.ok (Eq.symm h)
  | some s => simp only [override, (hr s a).mpr h]

theorem override_of_not_exists (hr : ∀ s a, read s = some a ↔ Says s a) {s : String}
    (ht : text = some s) (h : ¬ ∃ a, Says s a) :
    override name text read current = .error (.invalidEnv name s) := by
  have hnone : read s = none :=
    Option.eq_none_iff_forall_ne_some.mpr fun a ha => h ⟨a, (hr s a).mp ha⟩
  simp only [override, ht, hnone]

/-! ## Configurations -/

theorem applyEnvironment_of_overridden {n : Nat} {b : Bool}
    (hn : Overridden StepText (env.text? stepVariable) c.step n)
    (hb : Overridden FlagText (env.text? stoppedVariable) c.startStopped b) :
    c.applyEnvironment env = ({ c with step := n, startStopped := b }, none) := by
  simp only [applyEnvironment, override_of_overridden readStep?_eq_some_iff hn,
    override_of_overridden readFlag?_eq_some_iff hb]

theorem applyEnvironment_of_bad_step {s : String} (hs : env.text? stepVariable = some s)
    (h : ¬ ∃ n, StepText s n) :
    c.applyEnvironment env = (c, some (.invalidEnv stepVariable s)) := by
  rw [applyEnvironment, override_of_not_exists readStep?_eq_some_iff hs h]

theorem applyEnvironment_of_bad_flag {n : Nat} {s : String}
    (hn : Overridden StepText (env.text? stepVariable) c.step n)
    (hs : env.text? stoppedVariable = some s) (h : ¬ ∃ b, FlagText s b) :
    c.applyEnvironment env = ({ c with step := n }, some (.invalidEnv stoppedVariable s)) := by
  simp only [applyEnvironment, override_of_overridden readStep?_eq_some_iff hn]
  rw [override_of_not_exists readFlag?_eq_some_iff hs h]

/-- Nothing stops an environment iff both texts are acceptable, where they are set. -/
theorem applyEnvironment_snd_eq_none_iff (c : Config) (env : Environment) :
    (c.applyEnvironment env).2 = none ↔
      (∃ n, Overridden StepText (env.text? stepVariable) c.step n) ∧
        ∃ b, Overridden FlagText (env.text? stoppedVariable) c.startStopped b := by
  constructor
  · intro h
    have hstep : ∃ n, Overridden StepText (env.text? stepVariable) c.step n := by
      refine (exists_overridden_iff ..).mpr fun s hs => Classical.byContradiction fun hbad => ?_
      rw [applyEnvironment_of_bad_step hs hbad] at h
      cases h
    obtain ⟨n, hn⟩ := hstep
    refine ⟨⟨n, hn⟩, (exists_overridden_iff ..).mpr fun s hs =>
      Classical.byContradiction fun hbad => ?_⟩
    rw [applyEnvironment_of_bad_flag hn hs hbad] at h
    cases h
  · rintro ⟨⟨n, hn⟩, b, hb⟩
    rw [applyEnvironment_of_overridden hn hb]

/-- A new configuration comes of an environment iff nothing stops it on the default one. -/
theorem ofEnvironment_eq_ok_iff :
    ofEnvironment env = .ok d ↔ ({} : Config).applyEnvironment env = (d, none) := by
  unfold ofEnvironment
  split <;> rename_i h <;> simp [h]

theorem ofEnvironment_eq_error_iff :
    ofEnvironment env = .error e ↔ (({} : Config).applyEnvironment env).2 = some e := by
  unfold ofEnvironment
  split <;> rename_i h <;> simp [h]

/-- An environment with two variables, each set or not. -/
def twoVariables (step stopped : Option String) : Environment where
  entries := (step.map fun s => (stepVariable, s.toByteArray)).toList ++
    (stopped.map fun s => (stoppedVariable, s.toByteArray)).toList

theorem fromUTF8?_toByteArray (s : String) : String.fromUTF8? s.toByteArray = some s :=
  dif_pos s.isValidUTF8

theorem text?_twoVariables (step stopped : Option String) :
    (twoVariables step stopped).text? stepVariable = step ∧
      (twoVariables step stopped).text? stoppedVariable = stopped := by
  have hne : (stepVariable == stoppedVariable) = false := by decide
  have hne' : (stoppedVariable == stepVariable) = false := by decide
  cases step <;> cases stopped <;>
    simp [twoVariables, Environment.text?, List.lookup_cons, hne, hne', fromUTF8?_toByteArray]

/-- **Overrides from the environment.** Nothing stops two texts, set or not, iff the step is a number
with white space around it and the flag a word in some ASCII case. Then the fields whose variables are
set have what the texts say, and the same texts change nothing more. A step that cannot be read is
reported as it stands, whatever the flag, and nothing is overridden; a flag alone that cannot be read is
reported, and at most the step is overridden. A new configuration comes of the default one in the same
way, or not at all. Whatever its lower case is, no text outside ASCII is the word of a flag. -/
theorem environment_overrides (c : Config) (step stopped : Option String) :
    (∃ env : Environment,
      env.text? "CROSSGC_STEP" = step ∧ env.text? "CROSSGC_STOPPED" = stopped) ∧
    (∀ env : Environment,
      env.text? "CROSSGC_STEP" = step → env.text? "CROSSGC_STOPPED" = stopped →
      ((c.applyEnvironment env).2 = none ↔
        (∀ s, step = some s → ∃ n, StepText s n) ∧ ∀ s, stopped = some s → ∃ b, FlagText s b) ∧
      (∀ d, c.applyEnvironment env = (d, none) →
        Overridden StepText step c.step d.step ∧
        Overridden FlagText stopped c.startStopped d.startStopped ∧
        d.logging = c.logging ∧ d.applyEnvironment env = (d, none)) ∧
      (∀ s, step = some s → (¬ ∃ n, StepText s n) →
        c.applyEnvironment env = (c, some (.invalidEnv "CROSSGC_STEP" s))) ∧
      (∀ s, stopped = some s → (¬ ∃ b, FlagText s b) → (∀ s, step = some s → ∃ n, StepText s n) →
        ∃ n, Overridden StepText step c.step n ∧
          c.applyEnvironment env =
            ({ c with step := n }, some (.invalidEnv "CROSSGC_STOPPED" s))) ∧
      (∀ d, ofEnvironment env = .ok d ↔ ({} : Config).applyEnvironment env = (d, none)) ∧
      ∀ e, ofEnvironment env = .error e ↔ (({} : Config).applyEnvironment env).2 = some e) ∧
    ∀ s low b, Text.LowerCase s.toList low →
      (String.ofList low ∈ flagWords b ↔ FlagText s b) := by
  refine ⟨⟨twoVariables step stopped, text?_twoVariables step stopped⟩, ?_,
    fun s low b => flagText_iff_of_lowerCase⟩
  intro env hstep hstopped
  have hnone := applyEnvironment_snd_eq_none_iff c env
  simp only [exists_overridden_iff, stepVariable, stoppedVariable, hstep, hstopped] at hnone
  refine ⟨hnone, fun d hd => ?_, fun s hs hbad => ?_, fun s hs hbad hread => ?_,
    fun d => ofEnvironment_eq_ok_iff, fun e => ofEnvironment_eq_error_iff⟩
  · obtain ⟨⟨n, hn⟩, b, hb⟩ := (applyEnvironment_snd_eq_none_iff c env).mp (congrArg Prod.snd hd)
    rw [applyEnvironment_of_overridden hn hb] at hd
    obtain ⟨rfl, -⟩ := Prod.mk.inj hd
    refine ⟨hstep ▸ hn, hstopped ▸ hb, rfl, ?_⟩
    exact applyEnvironment_of_overridden hn.again hb.again
  · exact applyEnvironment_of_bad_step (hstep.trans hs) hbad
  · obtain ⟨n, hn⟩ := (exists_overridden_iff StepText step c.step).mpr hread
    refine ⟨n, hn, applyEnvironment_of_bad_flag ?_ (hstopped.trans hs) hbad⟩
    rwa [stepVariable, hstep]

/-- A step after an ideographic space, and a flag in capitals. -/
theorem environment_overrides_of_set :
    ∃ (env : Environment) (d : Config), env.text? "CROSSGC_STEP" = some "\u3000+007 " ∧
      env.text? "CROSSGC_STOPPED" = some "YES" ∧
      applyEnvironment { logging := { level := "debug" } } env = (d, none) ∧
      d.step = 7 ∧ d.startStopped = true ∧ d.logging.level = "debug" := by
  obtain ⟨⟨env, hstep, hstopped⟩, hall, -⟩ := environment_overrides
    { logging := { level := "debug" } } (some "\u3000+007 ") (some "YES")
  obtain ⟨hnone, hsome, -⟩ := hall env hstep hstopped
  have hread : readStep? "\u3000+007 " = some 7 := by decide +kernel
  have hflag : FlagText "YES" true := by decide +kernel
  have hok := hnone.mpr ⟨fun s hs => Option.some.inj hs ▸ ⟨7, (readStep?_eq_some_iff _ _).mp hread⟩,
    fun s hs => Option.some.inj hs ▸ ⟨true, hflag⟩⟩
  obtain ⟨hn, hb, hlogging, -⟩ := hsome _ (Prod.ext rfl hok)
  have hseven := hread.symm.trans ((readStep?_eq_some_iff _ _).mpr hn)
  exact ⟨env, _, hstep, hstopped, Prod.ext rfl hok, (Option.some.inj hseven).symm, hb.unique hflag,
    congrArg LoggingSection.level hlogging⟩

end SharedHeap.Config
