import Tracing.Proofs.Propagation.Reinjection

/-!
# Formats side by side

Every style has names of its own (`Style.names`), and no two styles share one (`Style.not_mem_names`). So of the
headers that several styles write one after the other, each is the header that its own style would write alone
(`Carrier.get?_setAll_styles`): order and repetition of the styles leave no trace, and no style sees another.
`inject_side_by_side` says this of the styles that a configuration lists, and that no trace notices.
-/

namespace Tracing

open Text

variable {carrier : Carrier} {style other : Style} {styles : List Style} {out : Outgoing}

/-! ### The names of a style -/

/-- The names of the headers that a style reads or writes. -/
def Style.names : Style → List String
  | b3multi => B3Multi.parentSpanIdHeader :: b3multi.headers
  | style => style.headers

theorem Style.mem_names_of_mem_headers {name : String} (h : name ∈ style.headers) : name ∈ style.names := by
  cases style with
  | b3multi => exact List.mem_cons_of_mem _ h
  | datadog | traceContext | b3 | none => exact h

theorem Style.lowercase_name (style : Style) : ∀ name ∈ style.names, lowercase name = name := by
  cases style <;> decide +kernel

/-- **No two styles share a name.** -/
theorem Style.not_mem_names (hne : style ≠ other) : ∀ name ∈ style.names, name ∉ other.names := by
  cases style <;> cases other <;> first | exact absurd rfl hne | decide +kernel

theorem mem_headerIf {name : String} {value : Option String} {header : String × String}
    (h : header ∈ headerIf name value) : header.1 = name := by
  obtain ⟨value, -, rfl⟩ := by simpa [headerIf] using h
  rfl

theorem B3Multi.mem_priorityHeaders {priority : Option Priority} {header : String × String}
    (h : header ∈ priorityHeaders priority) : header.1 = flagsHeader ∨ header.1 = sampledHeader := by
  rcases priority with _ | p
  · cases h
  · cases p <;> obtain rfl := List.mem_singleton.mp h <;> simp

theorem Style.mem_names_of_mem_written {header : String × String} (h : header ∈ style.written out) :
    header.1 ∈ style.names := by
  cases style with
  | datadog =>
    simp only [written, List.mem_append, List.mem_cons, List.not_mem_nil, or_false] at h
    rcases h with (((rfl | rfl) | h) | h) | h
    · simp [names, headers]
    · simp [names, headers]
    all_goals simp [names, headers, mem_headerIf h]
  | traceContext =>
    simp only [written, List.mem_cons, List.not_mem_nil, or_false] at h
    rcases h with rfl | rfl <;> simp [names, headers]
  | b3multi =>
    simp only [written, B3Multi.idHeaders, List.mem_append, List.mem_cons, List.not_mem_nil, or_false] at h
    rcases h with ((rfl | rfl) | hparent) | hpriority
    · simp [names, headers]
    · simp [names, headers]
    · simp [names, mem_headerIf hparent]
    · rcases B3Multi.mem_priorityHeaders hpriority with hname | hname <;> simp [names, headers, hname]
  | b3 =>
    obtain rfl := List.mem_singleton.mp h
    exact List.mem_singleton_self _
  | none => cases h

theorem Style.not_writes_of_ne (hne : style ≠ other) {name : String} (hname : name ∈ style.names) :
    ¬ Carrier.Writes (other.written out) name := by
  rintro ⟨header, hheader, heq⟩
  have hown := mem_names_of_mem_written hheader
  rw [lowercase_name other _ hown, lowercase_name style name hname] at heq
  exact not_mem_names hne name hname (heq ▸ hown)

/-! ### One style after the other -/

namespace Carrier

theorem get?_setAll_setAll (hopen : carrier.isOpen = true) (headers : List (String × String)) (name : String) :
    ((carrier.setAll headers).setAll headers).get? name = (carrier.setAll headers).get? name := by
  by_cases hwritten : Writes headers name
  · exact get?_setAll_of_written ((isOpen_setAll _ _).trans hopen) hopen hwritten
  · exact get?_setAll_of_not_written hwritten

/-- **Each header is the one that its own style would write alone**, and what no listed style owns stays. -/
theorem get?_setAll_styles (hopen : carrier.isOpen = true) {name : String} (hname : name ∈ style.names)
    (styles : List Style) : (carrier.setAll (styles.flatMap (·.written out))).get? name =
      if style ∈ styles then (carrier.setAll (style.written out)).get? name else carrier.get? name := by
  induction styles generalizing carrier with
  | nil => rfl
  | cons first rest ih =>
    have hopen' : (carrier.setAll (first.written out)).isOpen = true := (isOpen_setAll _ _).trans hopen
    rw [List.flatMap_cons, setAll_append, ih hopen']
    by_cases hfirst : style = first
    · subst hfirst
      rw [if_pos List.mem_cons_self, get?_setAll_setAll hopen, ite_self]
    · have hkeep : (carrier.setAll (first.written out)).get? name = carrier.get? name :=
        get?_setAll_of_not_written (Style.not_writes_of_ne hfirst hname)
      rw [hkeep, get?_setAll_congr hopen' hopen hkeep]
      simp only [List.mem_cons, hfirst, false_or]

/-- The headers of a list, stored one after the other under their names. -/
def storeAll (fields : Dict String) (headers : List (String × String)) : Dict String :=
  headers.foldl (fun fields header => fields.insert (lowercase header.1) header.2) fields

theorem setAll_headers (fields : Dict String) (headers : List (String × String)) :
    (Carrier.headers fields).setAll headers = .headers (storeAll fields headers) := by
  induction headers generalizing fields with
  | nil => rfl
  | cons header rest ih => exact ih (fields.insert (lowercase header.1) header.2)

theorem get?_storeAll_of_ne {headers : List (String × String)} {key : String}
    (h : ∀ header ∈ headers, lowercase header.1 ≠ key) (fields : Dict String) :
    (storeAll fields headers).get? key = fields.get? key := by
  induction headers generalizing fields with
  | nil => rfl
  | cons header rest ih =>
    obtain ⟨hhead, hrest⟩ := List.forall_mem_cons.mp h
    refine (ih hrest _).trans ?_
    rw [Dict.get?_insert, if_neg hhead]

end Carrier

theorem Style.lowercase_of_mem_written {header : String × String} (h : header ∈ style.written out) :
    lowercase header.1 = header.1 := lowercase_name style _ (mem_names_of_mem_written h)

/-- **Order and repetition of the styles leave no trace.** -/
theorem Carrier.storeAll_styles_congr {styles' : List Style}
    (h : ∀ style, style ≠ .none → (style ∈ styles ↔ style ∈ styles')) (out : Outgoing) (fields : Dict String) :
    storeAll fields (styles.flatMap (·.written out)) = storeAll fields (styles'.flatMap (·.written out)) := by
  refine Dict.ext_get? fun key => ?_
  by_cases hkey : ∃ style : Style, key ∈ style.names
  · obtain ⟨style, hname⟩ := hkey
    have hstyle : style ≠ .none := by
      rintro rfl
      cases hname
    have hget : ∀ fields : Dict String, (Carrier.headers fields).get? key = fields.get? key := fun fields =>
      congrArg fields.get? (style.lowercase_name key hname)
    rw [← hget, ← hget, ← setAll_headers, ← setAll_headers, get?_setAll_styles rfl hname,
      get?_setAll_styles rfl hname]
    simp only [h style hstyle]
  · have hfree : ∀ styles : List Style, ∀ header ∈ styles.flatMap (·.written out), lowercase header.1 ≠ key := by
      intro styles header hheader heq
      obtain ⟨style, -, hwritten⟩ := List.mem_flatMap.mp hheader
      rw [Style.lowercase_of_mem_written hwritten] at heq
      exact hkey ⟨style, heq ▸ Style.mem_names_of_mem_written hwritten⟩
    rw [get?_storeAll_of_ne (hfree styles), get?_storeAll_of_ne (hfree styles')]

/-- Injection stores the headers of all styles one after the other. -/
theorem Propagator.inject_value (p : Propagator) (out : Outgoing) (carrier : Carrier) :
    (p.inject out carrier).value = carrier.setAll (p.injectors.flatMap (·.written out)) := by
  unfold inject
  generalize p.injectors = styles
  induction styles generalizing carrier with
  | nil => rfl
  | cons style rest ih =>
    rw [List.foldlM_cons, Logged.value_bind, ih, Style.inject_value, List.flatMap_cons, Carrier.setAll_append]

/-! ### Traces that are told of -/

/-- What an operation does to the trace itself, if it does not only write headers. -/
def CarrierOp.act? : CarrierOp → Option TraceOp
  | act op => some op
  | inject _ => none

namespace CarrierRun

/-- One operation; headers are written in all styles of a propagator. -/
def stepAll (p : Propagator) (s : CarrierRun) : CarrierOp → CarrierRun
  | .act op => { s with run := s.run.step op }
  | .inject i => { s with
      carrier := ((s.run.outgoing? i).map fun out => (p.inject out s.carrier).value).getD s.carrier }

/-- Where a list of operations leads from an untouched trace and a carrier. -/
def afterAll (p : Propagator) (t : Trace) (carrier : Carrier) (ops : List CarrierOp) : CarrierRun :=
  ops.foldl (stepAll p) ⟨{ trace := t }, carrier⟩

/-- **A trace does not notice that its headers are written**: leave that out, and it is the same. -/
theorem run_afterAll (p : Propagator) (t : Trace) (carrier : Carrier) (ops : List CarrierOp) :
    (afterAll p t carrier ops).run = TraceRun.after t (ops.filterMap CarrierOp.act?) := by
  induction ops using List.reverseRecOn with
  | nil => rfl
  | append_singleton ops op ih =>
    have hstep : afterAll p t carrier (ops ++ [op]) = (afterAll p t carrier ops).stepAll p op := by
      unfold afterAll
      rw [List.foldl_append]
      rfl
    rw [hstep, List.filterMap_append]
    cases op with
    | act op =>
      show (afterAll p t carrier ops).run.step op = TraceRun.after t (ops.filterMap CarrierOp.act? ++ [op])
      rw [ih, TraceRun.after_concat]
    | inject i => exact ih.trans (congrArg (TraceRun.after t) (List.append_nil _).symm)

end CarrierRun

/-! ### The styles of a configuration -/

/-- The styles that are written with a configuration: those it lists for writing, or else for both directions. -/
def Config.writtenStyles (config : Config) : List Style :=
  if config.styleInject.isEmpty then config.style else config.styleInject

theorem Config.storeAll_injectors (config : Config) (out : Outgoing) (fields : Dict String) :
    let propagator := Propagator.ofStyles config.style config.styleExtract config.styleInject
    Carrier.storeAll fields (propagator.injectors.flatMap (·.written out)) =
      Carrier.storeAll fields (config.writtenStyles.flatMap (·.written out)) := by
  refine Carrier.storeAll_styles_congr (fun style hstyle => ?_) out fields
  show style ∈ config.writtenStyles.filter (· != .none) ↔ _
  simp [hstyle]

/-- **Formats that are injected together do not interfere.** With any configuration, whatever a string map holds
already: what it holds in the end depends neither on the order of the listed styles nor on how often each is
listed; each of them reads what it would read if it had been written alone; an entry that none of them writes
stays; and over any run of a trace nothing about the trace is changed by the headers that are written on the way,
so that it is never decided about for their sake. -/
theorem inject_side_by_side (config : Config) (out : Outgoing) (fields : Dict String) :
    let p := Propagator.ofStyles config.style config.styleExtract config.styleInject
    let styles := config.writtenStyles
    ∃ left : Dict String, (p.inject out (.headers fields)).value = .headers left ∧
      (∀ other : Config, (∀ style, style ≠ .none → (style ∈ other.writtenStyles ↔ style ∈ styles)) →
        ((Propagator.ofStyles other.style other.styleExtract other.styleInject).inject out
          (.headers fields)).value = .headers left) ∧
      (∀ style ∈ styles,
        style.extract (.headers left) = style.extract (style.inject out (.headers fields)).value) ∧
      (∀ key, (∀ style ∈ styles, ∀ header ∈ style.written out, header.1 ≠ key) →
        left.get? key = fields.get? key) ∧
      ∀ (t : Trace) (carrier : Carrier) (ops : List CarrierOp),
        (CarrierRun.afterAll p t carrier ops).run = TraceRun.after t (ops.filterMap CarrierOp.act?) := by
  intro p styles
  have hinject : ∀ config : Config, ((Propagator.ofStyles config.style config.styleExtract config.styleInject).inject
      out (.headers fields)).value = .headers (Carrier.storeAll fields
        (config.writtenStyles.flatMap (·.written out))) := fun config => by
    rw [Propagator.inject_value, Carrier.setAll_headers, config.storeAll_injectors]
  refine ⟨_, hinject config, fun other hsame => ?_, fun style hstyle => ?_, fun key hkey => ?_,
    CarrierRun.run_afterAll p⟩
  · rw [hinject other, Carrier.storeAll_styles_congr hsame]
  · refine Style.extract_congr fun name hname => ?_
    rw [← Carrier.setAll_headers, Carrier.get?_setAll_styles rfl (Style.mem_names_of_mem_headers hname),
      if_pos hstyle, Style.inject_value]
  · refine Carrier.get?_storeAll_of_ne (fun header hheader => ?_) fields
    obtain ⟨style, hstyle, hwritten⟩ := List.mem_flatMap.mp hheader
    rw [Style.lowercase_of_mem_written hwritten]
    exact hkey style hstyle header hwritten

/-- Two styles, one of them listed twice, over headers that an earlier hop left: the sampling state is outweighed
for its own format alone, and its twin in capitals is not touched. -/
theorem inject_side_by_side_prefilled :
    let config := { Config.default with styleInject := [.b3multi, .datadog, .none, .b3multi] }
    let p := Propagator.ofStyles config.style config.styleExtract config.styleInject
    let other := { Config.default with style := [.datadog, .b3multi] }
    let q := Propagator.ofStyles other.style other.styleExtract other.styleInject
    let out : Outgoing := ⟨.ofParts 5 7, .ofNat 9, some (.ofNat 3), none, some .userKeep, ∅⟩
    let fields : Dict String := .ofList [("x-b3-sampled", "0"), ("X-B3-Sampled", "0"), ("x-datadog-origin", "rum")]
    (∀ style, style ≠ .none → (style ∈ other.writtenStyles ↔ style ∈ config.writtenStyles)) ∧
      (q.inject out (.headers fields)).value = (p.inject out (.headers fields)).value ∧
      Style.b3multi ∈ config.writtenStyles ∧
      Style.b3multi.extract (p.inject out (.headers fields)).value =
        Style.b3multi.extract (Style.b3multi.inject out (.headers fields)).value ∧
      (Style.b3multi.extract (p.inject out (.headers fields)).value).value =
        some ⟨.ofParts 5 7, .ofNat 9, some .userKeep, none, ∅⟩ ∧
      (∀ style ∈ config.writtenStyles, ∀ header ∈ style.written out, header.1 ≠ "X-B3-Sampled") ∧
      ∃ left : Dict String, (p.inject out (.headers fields)).value = .headers left ∧
        left.get? "X-B3-Sampled" = some "0" := by
  intro config p other q out fields
  obtain ⟨left, hleft, horder, halone, hkeep, -⟩ := inject_side_by_side config out fields
  have hsame : ∀ style, style ≠ .none → (style ∈ other.writtenStyles ↔ style ∈ config.writtenStyles) := by
    intro style
    cases style <;> decide
  have hfree : ∀ style ∈ config.writtenStyles, ∀ header ∈ style.written out, header.1 ≠ "X-B3-Sampled" := by
    decide +kernel
  have hb3multi : Style.b3multi ∈ config.writtenStyles := by decide
  have hread := halone .b3multi hb3multi
  rw [← hleft] at hread
  refine ⟨hsame, (horder other hsame).trans hleft.symm, hb3multi, hread, ?_, hfree, left, hleft,
    (hkeep _ hfree).trans ?_⟩ <;> decide +kernel

end Tracing
