import Tracing.Proofs.Config.Grammar
import Tracing.Proofs.Config.Startup

/-!
# Settings that are text

The names of service, environment and version and the address of the agent are taken from the text of their variables.
Before that the text is read as any value is, so what looks like a value stands for that value. The texts that spell
something other than themselves are the literals (`Literal`): truth words, lists and tables, which set nothing, text in
quotes, which sets what the quotes hold, and numbers, which set the text that the number would be written with.

* `readText_read_of_not_literal`, `Literal.readText_read`: what a text and a literal set;
* `Literal.number_of_verbatim`: quotes get lost, and numbers may be written otherwise;
* `Config.text_setting`: a setting is its variable's text without the blanks around it, unless that is a literal.
-/

namespace Tracing

open Text Environment Variable

/-! ### Literals -/

/-- A text without the blanks around it, nothing if there is no more to it. -/
def nonBlank (text : List Char) : Option String :=
  if (trim text).isEmpty then none else some (String.ofList (trim text))

/-- A text that stands for something other than itself, and the text that a setting has from it, if any. -/
inductive Literal (text : List Char) : Option String → Prop
  | truth {b : Bool} (h : Spells (.value (.bool b)) text) : Literal text none
  | list {vs : List Json} (h : Spells (.value (.arr vs)) text) : Literal text none
  | table {ms : List (String × Json)} (h : Spells (.value (.obj ms)) text) : Literal text none
  | whole {n : Int} (h : Spells (.value (.int n)) text) : Literal text (some (Json.int n).text)
  | decimal {y : Float} (h : Spells (.value (.float y)) text) :
      Literal text (if y.isNaN || y.isInf then none else some (Json.float y).text)
  | quoted {before inner s after : List Char} (hbefore : Spaces before) (hafter : Spaces after) (h : Quoted inner s)
      (htext : text = before ++ ('"' :: inner ++ ['"']) ++ after) : Literal text (nonBlank s)
  | char {before after : List Char} {c : Char} (hbefore : Spaces before) (hafter : Spaces after)
      (htext : text = before ++ ['\'', c, '\''] ++ after) : Literal text (nonBlank [c])

theorem trim_around {before after : List Char} (hbefore : Spaces before) (hafter : Spaces after) (text : List Char) :
    trim (before ++ text ++ after) = trim text := by
  rw [trim_append_spaces hafter, trim_blanks_append fun c hc => isBlank_of_isSpace (hbefore c hc)]

theorem readText_str (s : List Char) : readText (.str (String.ofList s)) = nonBlank s := by
  unfold readText nonBlank
  simp only [String.toList_ofList]

variable {x : List Char} {r : Option String}

theorem Literal.readText_read (h : Literal x r) : readText (Variable.read x) = r := by
  cases h with
  | truth h | list h | table h | whole h | decimal h =>
    rw [read_of_spells h]
    rfl
  | quoted hbefore hafter h htext =>
    rw [htext, read_of_spells (.value hbefore hafter (.quoted h)), readText_str]
  | char hbefore hafter htext =>
    rw [htext, read_of_spells (.value hbefore hafter (.char _)), readText_str]

/-- **What is no literal is taken verbatim**, be it that it spells no value or is plain text. -/
theorem readText_read_of_not_literal (h : ∀ r, ¬ Literal x r) (hx : trim x ≠ []) :
    readText (Variable.read x) = some (String.ofList (trim x)) := by
  have hverbatim : nonBlank x = some (String.ofList (trim x)) := if_neg (mt List.isEmpty_iff.mp hx)
  by_cases hspells : ∃ v, Spells (.value v) x
  · obtain ⟨v, hv⟩ := hspells
    rw [read_of_spells hv]
    -- of all forms only plain text is no literal
    cases hv with
    | @value _ before text after hbefore hafter hbare =>
      have hv := Spells.value hbefore hafter hbare
      cases hbare with
      | yes | no => exact absurd (.truth hv) (h _)
      | list => exact absurd (.list hv) (h _)
      | table => exact absurd (.table hv) (h _)
      | quoted hinner => exact absurd (.quoted hbefore hafter hinner rfl) (h _)
      | char => exact absurd (.char hbefore hafter rfl) (h _)
      | number _ hnumber =>
        cases hnumber with
        | float => exact absurd (.decimal hv) (h _)
        | int => exact absurd (.whole hv) (h _)
      | plain =>
        rw [readText_str, ← hverbatim]
        unfold nonBlank
        rw [trim_trim, trim_around hbefore hafter]
  · rw [read_of_not_spells fun v hv => hspells ⟨v, hv⟩, readText_str, hverbatim]

/-! ### Literals that are taken verbatim -/

/-- Whole numbers and numbers with a point. -/
def Json.isNumber : Json → Bool
  | int _ | float _ => true
  | _ => false

theorem exists_bare {v : Json} (h : Spells (.value v) x) : ∃ text, Spells (.bare v) text ∧ trim x = trim text := by
  cases h with
  | value hbefore hafter h => exact ⟨_, h, trim_around hbefore hafter _⟩

/-- Whether a text starts like a truth value, a list, a table or a quotation, or is a number. -/
def looksLiteral (text : List Char) : Bool :=
  text.head?.any (· ∈ ['t', 'f', '[', '\x7b', '"', '\'']) || (Decimal.readFloat text).isSome

theorem looksLiteral_of_head {text : List Char} {c : Char} (h : text.head? = some c)
    (hc : c ∈ ['t', 'f', '[', '\x7b', '"', '\'']) : looksLiteral text = true := by
  unfold looksLiteral
  rw [h, Option.any_some, decide_eq_true hc]
  rfl

theorem looksLiteral_of_bare {v : Json} {text : List Char} (h : Spells (.bare v) text) (hstr : ∀ s, v ≠ .str s)
    (hint : ∀ n, v ≠ .int n) : looksLiteral (trim text) = true := by
  cases h with
  | yes => rfl
  | no => rfl
  | number _ hnumber =>
    cases hnumber with
    | float _ hread =>
      unfold looksLiteral
      rw [hread]
      exact Bool.or_true _
    | int => exact absurd rfl (hint _)
  | plain | quoted | char => exact absurd rfl (hstr _)
  | list | table => exact looksLiteral_of_head (head?_trim (by decide) _) (by decide)

theorem Literal.looksLiteral (h : Literal x none) : looksLiteral (trim x) = true := by
  generalize hr : (none : Option String) = r at h
  cases h with
  | truth h | list h | table h | decimal h =>
    obtain ⟨text, hbare, htrim⟩ := exists_bare h
    rw [htrim]
    exact looksLiteral_of_bare hbare nofun nofun
  | whole => cases hr
  | quoted hbefore hafter _ htext | char hbefore hafter htext =>
    rw [htext, trim_around hbefore hafter]
    exact looksLiteral_of_head (head?_trim (by decide) _) (by decide)

theorem length_of_nonBlank {s text : List Char} (h : nonBlank s = some (String.ofList text)) :
    text.length ≤ s.length := by
  unfold nonBlank at h
  split at h
  · cases h
  · rw [← String.ofList_injective (Option.some.inj h)]
    exact (trim_sublist s).length_le

/-- **Of all literals only numbers may be taken verbatim**: quotes get lost. -/
theorem Literal.number_of_verbatim (h : Literal x (some (String.ofList (trim x)))) :
    ∃ v, v.isNumber = true ∧ Spells (.value v) x ∧ v.text = String.ofList (trim x) := by
  generalize hr : some (String.ofList (trim x)) = r at h
  cases h with
  | truth | list | table => cases hr
  | whole h => exact ⟨_, rfl, h, (Option.some.inj hr).symm⟩
  | decimal h =>
    split at hr
    · cases hr
    · exact ⟨_, rfl, h, (Option.some.inj hr).symm⟩
  | quoted hbefore hafter h htext =>
    have hlength := length_of_nonBlank hr.symm
    have hquoted := h.length_le
    rw [htext, trim_around hbefore hafter, trim_enclosed (by decide)] at hlength
    simp at hlength
    omega
  | @char before after c hbefore hafter htext =>
    have hlength := length_of_nonBlank hr.symm
    have henclosed : trim ['\'', c, '\''] = ['\'', c, '\''] := trim_enclosed (by decide) [c]
    rw [htext, trim_around hbefore hafter, henclosed] at hlength
    simp at hlength

theorem literal_of_number {v : Json} (hv : v.isNumber = true) (h : Spells (.value v) x)
    (htext : v.text = String.ofList (trim x)) : Literal x (some (String.ofList (trim x))) := by
  cases v with
  | int n =>
    rw [← htext]
    exact .whole h
  | float y =>
    have hliteral := Literal.decimal h
    split at hliteral
    · next hinfinite =>
      -- the text would be that of nothing, without a point
      have hnull : (Json.float y).text = String.ofList "null".toList := by
        unfold Json.text Json.write
        rw [if_pos hinfinite]
      have htrim : trim x = "null".toList := String.ofList_injective (htext.symm.trans hnull)
      obtain ⟨text, hbare, heq⟩ := exists_bare h
      cases hbare with
      | number _ hnumber =>
        cases hnumber with
        | float hpoint =>
          rw [← heq, htrim] at hpoint
          exact absurd hpoint (by decide)
    · rw [← htext]
      exact hliteral
  | null | bool | str | arr | obj => cases hv

/-! ### Texts that are not blank -/

theorem exists_visible_writeNat (n : Nat) : ∃ c ∈ Integer.writeNat n, isBlank c = false := by
  obtain ⟨c, rest, hdigits⟩ := List.exists_cons_of_ne_nil (Json.writeNat_ne_nil n)
  have hc : c ∈ Integer.writeNat n := hdigits ▸ List.mem_cons_self
  obtain ⟨hlow, hhigh, -⟩ := (isPlain_iff _).mp (Integer.isPlain_writeNat n) c hc
  exact ⟨c, hc, isBlank_of_visible hlow hhigh⟩

theorem exists_visible_positional (d : Nat) (k : Int) : ∃ c ∈ Decimal.positional d k, isBlank c = false := by
  unfold Decimal.positional
  simp only
  split
  · obtain ⟨c, hc, hvisible⟩ := exists_visible_writeNat d
    exact ⟨c, List.mem_append_left _ hc, hvisible⟩
  · exact ⟨'.', List.mem_append_right _ List.mem_cons_self, by decide⟩

theorem exists_visible_exponential (plusSign : Bool) (d : Nat) (k : Int) :
    ∃ c ∈ Decimal.exponential plusSign d k, isBlank c = false := by
  unfold Decimal.exponential
  simp only
  exact ⟨'e', by simp, by decide⟩

theorem exists_visible_writeMagnitude (layout : Decimal.Layout) (y : Float) :
    ∃ c ∈ layout.writeMagnitude y, isBlank c = false := by
  unfold Decimal.Layout.writeMagnitude
  split
  next d k _ =>
  simp only
  split
  · obtain ⟨c, hc, hvisible⟩ := exists_visible_positional d k
    split
    · exact ⟨c, List.mem_append_left _ hc, hvisible⟩
    · exact ⟨c, hc, hvisible⟩
  · exact exists_visible_exponential _ d k

/-- **What is read as text is not blank.** -/
theorem trim_ne_nil_of_readText {v : Json} {s : String} (h : readText v = some s) : trim s.toList ≠ [] := by
  have hvisible : ∀ {text : List Char}, (∃ c ∈ text, isBlank c = false) → trim text ≠ [] := by
    rintro text ⟨c, hc, hvisible⟩ hnil
    rw [trim_eq_nil_iff.mp hnil c hc] at hvisible
    cases hvisible
  unfold readText at h
  split at h
  · simp only at h
    split at h
    · cases h
    · next hne =>
      cases h
      rw [String.toList_ofList, trim_trim]
      exact mt List.isEmpty_iff.mpr hne
  · next n =>
    cases h
    refine hvisible ?_
    rw [Json.text, String.toList_ofList, Json.write]
    cases n with
    | ofNat n => exact exists_visible_writeNat n
    | negSucc n => exact ⟨'-', List.mem_cons_self, by decide⟩
  · split at h
    · cases h
    · next y hfinite =>
      cases h
      refine hvisible ?_
      obtain ⟨hnan, hinf⟩ := Bool.or_eq_false_iff.mp (Bool.eq_false_of_not_eq_true hfinite)
      obtain ⟨c, hc, hmagnitude⟩ := exists_visible_writeMagnitude Decimal.json y
      rw [Json.text, String.toList_ofList, Json.write, if_neg hfinite, Decimal.Layout.write, hnan, hinf]
      exact ⟨c, List.mem_append_right _ hc, hmagnitude⟩
  · cases h

/-! ### Variables that are read -/

/-- Whether a variable is read: its name starts with `DD_` in any case. -/
def Environment.isOurs (name : String) : Bool := "dd_".toList.isPrefixOf ((trim name.toList).map lowerAscii)

theorem Environment.fieldPath_of_not_ours {name : String} (h : isOurs name = false) : fieldPath name = none := by
  unfold fieldPath
  simp only
  split
  · next key hkey =>
    have hours : isOurs name = true := List.isPrefixOf_iff_prefix.mpr ⟨key, (dropLead?_eq_some_iff.mp hkey).symm⟩
    rw [h] at hours
    cases hours
  · rfl

theorem Environment.get?_table_ours (assignments : List (String × String)) (field : String) :
    (table (assignments.filter (isOurs ·.1))).get? field = (table assignments).get? field := by
  rw [get?_table, get?_table, List.foldl_filter]
  congr 1
  funext old v
  split
  · rfl
  · next hours =>
    refine (writeField_of_ne ?_ old).symm
    rw [field?, fieldPath_of_not_ours (Bool.eq_false_of_not_eq_true hours)]
    exact Option.some_ne_none _ ∘ Eq.symm

theorem Environment.get?_table_single {assignments : List (String × String)} {name value field : String}
    (hours : assignments.filter (isOurs ·.1) = [(name, value)]) (hfield : fieldPath name = some [field])
    (other : String) :
    (table assignments).get? other = if field = other then some (Variable.read value.toList) else none := by
  rw [← get?_table_ours, hours, get?_table]
  show writeField other none (name, value) = _
  unfold writeField
  rw [hfield]
  rfl

/-! ### Settings -/

/-- The settings that are text. -/
inductive TextSetting where
  | service
  | env
  | version
  | endpointUrl
deriving DecidableEq, Repr

namespace TextSetting

/-- The variable of a setting. -/
def variableName : TextSetting → String
  | service => "DD_SERVICE"
  | env => "DD_ENV"
  | version => "DD_VERSION"
  | endpointUrl => "DD_TRACE_ENDPOINT_URL"

/-- The field that the variable names. -/
def field : TextSetting → String
  | service => "service"
  | env => "env"
  | version => "version"
  | endpointUrl => "trace_endpoint_url"

/-- The value of a setting. -/
def get (c : Config) : TextSetting → Option String
  | service => some c.service
  | env => c.env
  | version => c.version
  | endpointUrl => some c.endpointUrl

theorem fieldPath_variableName (setting : TextSetting) : fieldPath setting.variableName = some [setting.field] := by
  cases setting <;> decide +kernel

theorem get_applyTo {d : Dict Json} (rules : Option (List RuleConfig)) (setting : TextSetting) {v : Json}
    (h : d.get? setting.field = some v) :
    setting.get ({ settingsOf d with rules }.applyTo .default).repair = (readText v).or (setting.get .default) := by
  cases setting with
  | service =>
    show some (Config.orIfBlank (((d.get? "service").bind readText).getD Config.default.service)) = _
    rw [show d.get? "service" = some v from h, Option.bind_some]
    cases hread : readText v with
    | none => rfl
    | some s => exact congrArg some (if_neg (mt List.isEmpty_iff.mp (trim_ne_nil_of_readText hread)))
  | env =>
    show (((d.get? "env").bind fun v => (readText v).map some).getD none) = _
    rw [show d.get? "env" = some v from h, Option.bind_some]
    cases readText v <;> rfl
  | version =>
    show (((d.get? "version").bind fun v => (readText v).map some).getD none) = _
    rw [show d.get? "version" = some v from h, Option.bind_some]
    cases readText v <;> rfl
  | endpointUrl =>
    show some (((d.get? "trace_endpoint_url").bind readText).getD Config.default.endpointUrl) = _
    rw [show d.get? "trace_endpoint_url" = some v from h, Option.bind_some]
    cases readText v <;> rfl

theorem get_default_ne (setting : TextSetting) (h : Literal x none) :
    setting.get .default ≠ some (String.ofList (trim x)) := by
  intro heq
  have hlooks := h.looksLiteral
  cases setting with
  | env | version => cases heq
  | service =>
    have htrim : trim x = "unnamed-service".toList := String.ofList_injective (Option.some.inj heq).symm
    rw [htrim] at hlooks
    exact absurd hlooks (by decide +kernel)
  | endpointUrl =>
    have htrim : trim x = "http://localhost:9411/api/v2/spans".toList :=
      String.ofList_injective (Option.some.inj heq).symm
    rw [htrim] at hlooks
    exact absurd hlooks (by decide +kernel)

theorem field_not_mem (setting : TextSetting) : setting.field ∉ styleFields ∧ setting.field ∉ durationFields := by
  cases setting <;> decide

end TextSetting

theorem Environment.firstFailure_of_single {assignments : List (String × String)} {setting : TextSetting}
    {value : String} (hours : assignments.filter (isOurs ·.1) = [(setting.variableName, value)]) :
    firstFailure (table assignments) = none := by
  refine List.findSome?_eq_none_iff.mpr fun entry hentry => ?_
  have hvalue := Dict.get?_of_mem hentry
  rw [get?_table_single hours setting.fieldPath_variableName] at hvalue
  split at hvalue
  · next hfield =>
    rw [← hfield]
    unfold failure?
    rw [if_neg setting.field_not_mem.1, if_neg setting.field_not_mem.2]
  · cases hvalue

/-- **A text setting is the text of its variable without the blanks around it, unless that text is a literal.** If no
other variable is read and the text is not blank, a configuration comes back. A literal sets the setting to what it
stands for, or leaves it at the default. Hence the text is taken verbatim exactly if it is no literal, or a number that
is written as the number itself would be. -/
theorem Config.text_setting (setting : TextSetting) {assignments : List (String × String)} {value : String}
    (hours : assignments.filter (isOurs ·.1) = [(setting.variableName, value)]) (hvalue : trim value.toList ≠ []) :
    ∃ c, (Config.ofEnvironment assignments).value = some c ∧
      ((∀ r, ¬ Literal value.toList r) → setting.get c = some (String.ofList (trim value.toList))) ∧
      (∀ r, Literal value.toList r → setting.get c = r.or (setting.get .default)) ∧
      (setting.get c = some (String.ofList (trim value.toList)) ↔ ∀ r, Literal value.toList r →
        ∃ v, v.isNumber = true ∧ Spells (.value v) value.toList ∧ v.text = String.ofList (trim value.toList)) := by
  have hread : (table assignments).get? setting.field = some (Variable.read value.toList) := by
    rw [get?_table_single hours setting.fieldPath_variableName, if_pos rfl]
  obtain ⟨c, hc, hget⟩ : ∃ c, (Config.ofEnvironment assignments).value = some c ∧
      setting.get c = (readText (Variable.read value.toList)).or (setting.get .default) :=
    ⟨_, by rw [Config.ofEnvironment_value, firstFailure_of_single hours],
      setting.get_applyTo (rulesOf assignments) hread⟩
  have hverbatim : (∀ r, ¬ Literal value.toList r) →
      setting.get c = some (String.ofList (trim value.toList)) := fun h => by
    rw [hget, readText_read_of_not_literal h hvalue]
    rfl
  have hliteral : ∀ r, Literal value.toList r → setting.get c = r.or (setting.get .default) := fun r h => by
    rw [hget, h.readText_read]
  refine ⟨c, hc, hverbatim, hliteral, ?_⟩
  constructor
  · intro heq r h
    rw [hliteral r h] at heq
    cases r with
    | none => exact absurd heq (setting.get_default_ne h)
    | some s =>
      obtain rfl : s = String.ofList (trim value.toList) := Option.some.inj heq
      exact h.number_of_verbatim
  · intro hnumber
    by_cases hsome : ∃ r, Literal value.toList r
    · obtain ⟨r, h⟩ := hsome
      obtain ⟨v, hv, hspells, htext⟩ := hnumber r h
      exact hliteral _ (literal_of_number hv hspells htext)
    · exact hverbatim fun r h => hsome ⟨r, h⟩

/-- A version that is a number with a point loses the zero at its end. -/
theorem Config.text_setting_version :
    ∃ c, (Config.ofEnvironment [("HOME", "/root"), ("DD_VERSION", "1.10")]).value = some c ∧
      c.version = some "1.1" := by
  have hours : [("HOME", "/root"), ("DD_VERSION", "1.10")].filter (isOurs ·.1) =
      [(TextSetting.version.variableName, "1.10")] := by decide +kernel
  have hplain : PlainText "1.10".toList :=
    { separators := by simp [isSeparator]
      head := by rintro c ⟨⟩; decide
      words := by decide }
  have hnumber : Number (trim "1.10".toList) (.float 1.1) := .float (by decide) (by decide +kernel)
  have hliteral : Literal "1.10".toList (some "1.1") := by
    have hspells : Spells (.value (.float 1.1)) ([] ++ "1.10".toList ++ []) :=
      .value nofun nofun (.number hplain hnumber)
    have hdecimal := Literal.decimal hspells
    have htext : (Json.float 1.1).text = "1.1" := by decide +kernel
    have hfinite : ((1.1 : Float).isNaN || (1.1 : Float).isInf) = false := by decide +kernel
    rw [htext, hfinite, List.append_nil] at hdecimal
    exact hdecimal
  obtain ⟨c, hc, -, hset, -⟩ := Config.text_setting .version hours (by decide)
  exact ⟨c, hc, hset _ hliteral⟩

/-- Not every text is taken verbatim. -/
theorem Config.not_text_verbatim : ¬ ∀ (setting : TextSetting) (assignments : List (String × String)) (value : String),
    assignments.filter (isOurs ·.1) = [(setting.variableName, value)] → trim value.toList ≠ [] →
      ∃ c, (Config.ofEnvironment assignments).value = some c ∧
        setting.get c = some (String.ofList (trim value.toList)) := by
  intro h
  obtain ⟨c, hc, hversion⟩ := h .version [("DD_VERSION", "1.10")] "1.10" (by decide +kernel) (by decide)
  have hbuilt : (Config.ofEnvironment [("DD_VERSION", "1.10")]).value.map Config.version = some (some "1.1") := by
    decide +kernel
  rw [hc] at hbuilt
  have hset : c.version = some "1.1" := Option.some.inj hbuilt
  have hverbatim : c.version = some (String.ofList (trim "1.10".toList)) := hversion
  rw [hset] at hverbatim
  exact absurd hverbatim (by decide)

end Tracing
