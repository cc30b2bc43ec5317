import DocAudit.Record.Report
import DocAudit.Record.Settings

/-!
# Proofs/RecordRoundTrip — records read back as what they were written from

Every record that the library writes is an object whose keys are known, so reading it back is a
matter of single members.  `get?_cons`, `get?_append` and `get?_memberOf` find a member among the
ones that were written; `optional_eq_elim` and `orElse_eq_elim` say what an absent member means, and
the lemmas on values read each kind of value behind a key.  With these, `simp` runs a reader on the
record that its writer made; lists and bounded integers are put in by hand.

Integers are read as 64 bits, so the `Fits` conditions ask for no more than that of a value.
-/

namespace DocAudit

/-! ## Values that fit into records -/

/-- The line number is one of 64 bits. -/
def Location.Fits (l : Location) : Prop :=
  l.line < UInt64.size

instance (l : Location) : Decidable l.Fits :=
  inferInstanceAs (Decidable (l.line < UInt64.size))

/-- The position is one of 64 bits. -/
def Parameter.Fits (p : Parameter) : Prop :=
  p.position < UInt64.size

instance (p : Parameter) : Decidable p.Fits :=
  inferInstanceAs (Decidable (p.position < UInt64.size))

/-- All integers of the signature have 64 bits. -/
structure Signature.Fits (s : Signature) : Prop where
  parameters : ∀ p ∈ s.parameters, p.Fits
  location : s.location.Fits

instance (s : Signature) : Decidable s.Fits :=
  decidable_of_iff ((∀ p ∈ s.parameters, p.Fits) ∧ s.location.Fits)
    ⟨fun h => ⟨h.1, h.2⟩, fun h => ⟨h.parameters, h.location⟩⟩

/-- All integers of the diagnostic have 64 bits. -/
structure Diagnostic.Fits (d : Diagnostic) : Prop where
  location : d.location.Fits
  position : ∀ n ∈ d.position, n < UInt64.size

instance (d : Diagnostic) : Decidable d.Fits :=
  decidable_of_iff (d.location.Fits ∧ ∀ n ∈ d.position, n < UInt64.size)
    ⟨fun h => ⟨h.1, h.2⟩, fun h => ⟨h.location, h.position⟩⟩

/-- All integers of the report have 64 bits. -/
structure Report.Fits (r : Report) : Prop where
  filesChecked : r.filesChecked < UInt64.size
  functionsChecked : r.functionsChecked < UInt64.size
  diagnostics : ∀ d ∈ r.diagnostics, d.Fits

instance (r : Report) : Decidable r.Fits :=
  decidable_of_iff
    (r.filesChecked < UInt64.size ∧ r.functionsChecked < UInt64.size ∧ ∀ d ∈ r.diagnostics, d.Fits)
    ⟨fun h => ⟨h.1, h.2.1, h.2.2⟩, fun h => ⟨h.filesChecked, h.functionsChecked, h.diagnostics⟩⟩

/-- The number of jobs, where one is given, is one of 64 bits. -/
def Settings.Fits (s : Settings) : Prop :=
  ∀ n ∈ s.jobs, n < UInt64.size

instance (s : Settings) : Decidable s.Fits :=
  inferInstanceAs (Decidable (∀ n ∈ s.jobs, n < UInt64.size))

namespace Json

variable {α : Type} {read : Json → Option α} {write : α → Json}

/-! ## Members -/

@[simp] theorem get?_nil (key : String) : (object []).get? key = none := rfl

/-- Of members with one key the last one counts. -/
@[simp] theorem get?_cons (key k : String) (v : Json) (ms : List (String × Json)) :
    (object ((k, v) :: ms)).get? key
      = ((object ms).get? key).or (if key = k then some v else none) := by
  simp only [get?, List.reverse_cons, List.lookup_append, List.lookup_cons, List.lookup_nil]
  by_cases h : key = k
  · simp [h]
  · simp [h, beq_false_of_ne h]

@[simp] theorem get?_append (key : String) (ms ns : List (String × Json)) :
    (object (ms ++ ns)).get? key = ((object ns).get? key).or ((object ms).get? key) := by
  simp [get?, List.lookup_append]

@[simp] theorem get?_memberOf (key k : String) (o : Option α) :
    (object (memberOf write k o)).get? key = if key = k then o.map write else none := by
  cases o <;> simp [memberOf]

@[simp] theorem record?_object (least : Nat) (keys : List String) (ms : List (String × Json)) :
    (object ms).record? least keys = some (object ms) := rfl

/-- A value that may be `null`, which means none. -/
def nullable? (read : Json → Option α) : Json → Option (Option α)
  | null => some none
  | v => (read v).map some

theorem optional_eq_elim (key : String) (j : Json) :
    j.optional read key = (j.get? key).elim (some none) (nullable? read) := by
  unfold optional nullable?
  rcases j.get? key with _ | (_ | _) <;> rfl

theorem orElse_eq_elim (key : String) (default : α) (j : Json) :
    j.orElse read key default = (j.get? key).elim (some default) read := by
  unfold orElse
  rcases j.get? key with _ | _ <;> rfl

/-! ## Values -/

@[simp] theorem string?_string (s : String) : (string s).string? = some s := rfl

@[simp] theorem bool?_bool (b : Bool) : (bool b).bool? = some b := rfl

theorem natural?_natural {n : Nat} (h : n < UInt64.size) : (natural n).natural? = some n :=
  if_pos h

/-- A list reads back where its items do. -/
theorem list?_ofList {l : List α} (h : ∀ a ∈ l, read (write a) = some a) :
    (ofList write l).list? read = some l := by
  simp only [ofList, list?]
  induction l with
  | nil => rfl
  | cons a l ih =>
    rw [List.map_cons, List.mapM_cons, h a List.mem_cons_self,
      ih fun b hb => h b (List.mem_cons_of_mem a hb)]
    rfl

@[simp] theorem list?_ofList_string (l : List String) : (ofList string l).list? string? = some l :=
  list?_ofList fun s _ => string?_string s

/-- An absent string that is written as `null`. -/
@[simp] theorem nullable?_ofOption_string (o : Option String) :
    nullable? string? (ofOption string o) = some o := by
  cases o <;> rfl

/-- An absent string that is left out. -/
@[simp] theorem elim_nullable?_string (o : Option String) :
    o.elim (some none) (nullable? string? ∘ string) = some o := by
  cases o <;> rfl

/-- An absent integer that is written as `null`. -/
theorem nullable?_ofOption_natural {o : Option Nat} (h : ∀ n ∈ o, n < UInt64.size) :
    nullable? natural? (ofOption natural o) = some o := by
  rcases o with _ | n
  · rfl
  · rw [ofOption, nullable?, natural?_natural (h n rfl), Option.map_some]
    nofun

/-- An absent integer that is left out. -/
theorem elim_nullable?_natural {o : Option Nat} (h : ∀ n ∈ o, n < UInt64.size) :
    o.elim (some none) (nullable? natural? ∘ natural) = some o := by
  rcases o with _ | n
  · rfl
  · exact nullable?_ofOption_natural h

end Json

/-! ## Names

No two values of an enumeration share a name. -/

@[simp] theorem ParamKind.ofJson?_toJson (k : ParamKind) : ofJson? k.toJson = some k := by
  cases k <;> decide

@[simp] theorem FieldKind.ofJson?_toJson (k : FieldKind) : ofJson? k.toJson = some k := by
  cases k <;> decide

@[simp] theorem Severity.ofJson?_toJson (s : Severity) : ofJson? s.toJson = some s := by
  cases s <;> decide

@[simp] theorem Category.ofLabel?_label (c : Category) : ofLabel? c.label = some c := by
  cases c <;> decide

@[simp] theorem Category.ofJson?_toJson (c : Category) : ofJson? c.toJson = some c :=
  c.ofLabel?_label

theorem Category.mem_all (c : Category) : c ∈ all := by
  cases c <;> decide

/-! ## Signatures -/

theorem Location.ofJson?_toJson {l : Location} (h : l.Fits) : ofJson? l.toJson = some l := by
  simp [toJson, ofJson?, Json.required, Path.toJson, Path.ofJson?, Json.natural?_natural h]

theorem Parameter.ofJson?_toJson {p : Parameter} (h : p.Fits) : ofJson? p.toJson = some p := by
  simp [toJson, ofJson?, Json.required, Json.optional_eq_elim, Json.natural?_natural h]

theorem Signature.ofJson?_toJson {s : Signature} (h : s.Fits) : ofJson? s.toJson = some s := by
  have hparameters : (Json.ofList Parameter.toJson s.parameters).list? Parameter.ofJson?
      = some s.parameters :=
    Json.list?_ofList fun p hp => Parameter.ofJson?_toJson (h.parameters p hp)
  simp [toJson, ofJson?, Json.required, Json.optional_eq_elim, hparameters,
    Location.ofJson?_toJson h.location]

/-! ## Fields -/

theorem Field.get?_inline (f : Field) :
    f.toJson.get? "inline" = if f.isInline then some (.bool true) else none := by
  unfold toJson
  split <;> simp

theorem Field.ofJson?_toJson (f : Field) : ofJson? f.toJson = some f := by
  rcases f with ⟨kind, subject, body, _ | _⟩ <;>
    simp [toJson, ofJson?, Json.required, Json.optional_eq_elim, Json.orElse_eq_elim]

theorem FieldList.ofJson?_toJson (fields : List Field) : ofJson? (toJson fields) = some fields := by
  have hfields : (Json.ofList Field.toJson fields).list? Field.ofJson? = some fields :=
    Json.list?_ofList fun f _ => f.ofJson?_toJson
  simp [toJson, ofJson?, Json.required, hfields]

/-! ## Diagnostics -/

/-- The name of the category stands beside the data, whatever the data are. -/
theorem Finding.get?_category (f : Finding) :
    f.toJson.get? "category" = some (.string f.category.label) := by
  cases f <;> simp [toJson, dataMembers, Category.toJson]

theorem Finding.ofData?_toJson (f : Finding) : ofData? f.toJson f.category = some f := by
  cases f <;> simp [toJson, category, dataMembers, ofData?, Json.required, Json.optional_eq_elim]

theorem Finding.ofJson?_toJson (f : Finding) : ofJson? f.toJson = some f := by
  have htag : f.toJson.required tag? "category" = some f.category := by
    simp [Json.required, get?_category, tag?]
  have hread : ofJson? f.toJson = (f.toJson.required tag? "category").bind (ofData? f.toJson) := rfl
  rw [hread, htag, Option.bind_some, ofData?_toJson]

theorem Diagnostic.ofJson?_toJson {d : Diagnostic} (h : d.Fits) : ofJson? d.toJson = some d := by
  simp [toJson, ofJson?, Json.required, Json.optional_eq_elim, Location.ofJson?_toJson h.location,
    Json.elim_nullable?_natural h.position, d.finding.ofJson?_toJson]

/-! ## Settings and reports -/

/-- The ignored categories are read as the set that they were written from. -/
theorem Settings.contains_ignoredList (s : Settings) : s.ignoredList.contains = s.ignores := by
  ext c
  rw [Bool.eq_iff_iff, List.contains_iff_mem, ignoredList, List.mem_filter]
  simp [Category.mem_all c]

theorem Settings.ofJson?_toJson {s : Settings} (h : s.Fits) : ofJson? s.toJson = some s := by
  have hignored : (Json.ofList Category.toJson s.ignoredList).list? Category.ofJson?
      = some s.ignoredList :=
    Json.list?_ofList fun c _ => c.ofJson?_toJson
  have hkeys : (guard (hasOnlyKeys s.toJson = true) : Option Unit) = some () :=
    if_pos (by simp [toJson, hasOnlyKeys, keys])
  have hrecord : s.toJson.record? 0 keys = some s.toJson := rfl
  rw [ofJson?, hrecord, Option.bind_eq_bind, Option.bind_some, hkeys]
  simp [toJson, Json.optional_eq_elim, Json.orElse_eq_elim, hignored, contains_ignoredList,
    Json.nullable?_ofOption_natural h]

theorem Report.list?_diagnostics {r : Report} (h : r.Fits) :
    (Json.ofList Diagnostic.toJson r.diagnostics).list? Diagnostic.ofJson? = some r.diagnostics :=
  Json.list?_ofList fun d hd => Diagnostic.ofJson?_toJson (h.diagnostics d hd)

theorem Report.ofJson?_toJson {r : Report} (h : r.Fits) : ofJson? r.toJson = some r := by
  simp [toJson, ofJson?, Json.required, Json.orElse_eq_elim, Json.natural?_natural h.filesChecked,
    Json.natural?_natural h.functionsChecked, list?_diagnostics h]

/-- The totals do not get in the way. -/
theorem Report.ofJson?_toJsonWithTotals {r : Report} (h : r.Fits) :
    ofJson? r.toJsonWithTotals = some r := by
  simp [toJsonWithTotals, ofJson?, Json.required, Json.orElse_eq_elim,
    Json.natural?_natural h.filesChecked, Json.natural?_natural h.functionsChecked,
    list?_diagnostics h]

/-! ## The data model as a whole -/

/-- Reading gives back every value that was written, for each type that has a record. -/
structure RecordsReadBack : Prop where
  report (r : Report) (h : r.Fits) : Report.ofJson? r.toJson = some r
  diagnostic (d : Diagnostic) (h : d.Fits) : Diagnostic.ofJson? d.toJson = some d
  finding (f : Finding) : Finding.ofJson? f.toJson = some f
  location (l : Location) (h : l.Fits) : Location.ofJson? l.toJson = some l
  severity (s : Severity) : Severity.ofJson? s.toJson = some s
  category (c : Category) : Category.ofJson? c.toJson = some c
  fieldKind (k : FieldKind) : FieldKind.ofJson? k.toJson = some k
  signature (s : Signature) (h : s.Fits) : Signature.ofJson? s.toJson = some s
  parameter (p : Parameter) (h : p.Fits) : Parameter.ofJson? p.toJson = some p
  paramKind (k : ParamKind) : ParamKind.ofJson? k.toJson = some k
  field (f : Field) : Field.ofJson? f.toJson = some f
  fieldList (fields : List Field) : FieldList.ofJson? (FieldList.toJson fields) = some fields
  settings (s : Settings) (h : s.Fits) : Settings.ofJson? s.toJson = some s

/-- The three conventions for what is absent, the place of the category and the listing of ignored
categories: what stands under a key that a record may lack, or may hold `null` under. -/
structure MembersFollowConventions : Prop where
  position (d : Diagnostic) : d.toJson.get? "position" = d.position.map .natural
  declared (name : String) (declared documented : Option String) :
    (Finding.typeOnOneSide name declared documented).toJson.get? "declared" = declared.map .string
  documented (name : String) (declared documented : Option String) :
    (Finding.typeOnOneSide name declared documented).toJson.get? "documented"
      = documented.map .string
  inline (f : Field) : f.toJson.get? "inline" = if f.isInline then some (.bool true) else none
  subject (f : Field) : f.toJson.get? "subject" = some (.ofOption .string f.subject)
  duplicateSubject (field : FieldKind) (subject : Option String) :
    (Finding.duplicateField field subject).toJson.get? "subject"
      = some (.ofOption .string subject)
  malformedSubject (field : FieldKind) (subject : Option String) (reason : String) :
    (Finding.malformedField field subject reason).toJson.get? "subject"
      = some (.ofOption .string subject)
  declaredType (p : Parameter) :
    p.toJson.get? "declared_type" = some (.ofOption .string p.declaredType)
  returnType (s : Signature) : s.toJson.get? "return_type" = some (.ofOption .string s.returnType)
  jobs (s : Settings) : s.toJson.get? "jobs" = some (.ofOption .natural s.jobs)
  category (f : Finding) : f.toJson.get? "category" = some (.string f.category.label)
  ignored (s : Settings) : s.toJson.get? "ignore_categories"
    = some (.ofList Category.toJson (Category.all.filter s.ignores))

theorem membersFollowConventions : MembersFollowConventions where
  position d := by simp [Diagnostic.toJson]
  declared name declared documented := by simp [Finding.toJson, Finding.dataMembers]
  documented name declared documented := by simp [Finding.toJson, Finding.dataMembers]
  inline := Field.get?_inline
  subject f := by
    unfold Field.toJson
    split <;> simp
  duplicateSubject field subject := by simp [Finding.toJson, Finding.dataMembers]
  malformedSubject field subject reason := by simp [Finding.toJson, Finding.dataMembers]
  declaredType p := by simp [Parameter.toJson]
  returnType s := by simp [Signature.toJson]
  jobs s := by simp [Settings.toJson]
  category := Finding.get?_category
  ignored s := by simp [Settings.toJson, Settings.ignoredList]

/-- **Reading undoes writing on the whole data model**, with every convention for absent values. -/
theorem records_read_back : RecordsReadBack ∧ MembersFollowConventions := by
  refine ⟨?_, membersFollowConventions⟩
  exact
    { report := fun _ => Report.ofJson?_toJson
      diagnostic := fun _ => Diagnostic.ofJson?_toJson
      finding := Finding.ofJson?_toJson
      location := fun _ => Location.ofJson?_toJson
      severity := Severity.ofJson?_toJson
      category := Category.ofJson?_toJson
      fieldKind := FieldKind.ofJson?_toJson
      signature := fun _ => Signature.ofJson?_toJson
      parameter := fun _ => Parameter.ofJson?_toJson
      paramKind := ParamKind.ofJson?_toJson
      field := Field.ofJson?_toJson
      fieldList := FieldList.ofJson?_toJson
      settings := fun _ => Settings.ofJson?_toJson }

/-- A report whose texts need escapes and whose diagnostics leave members out in different ways. -/
def Report.sample : Report where
  filesChecked := 2
  functionsChecked := 18446744073709551615
  diagnostics :=
    [{ category := .typeDocMissing, severity := .warning, function := "Größe.f"
       location := ⟨⟨"a\\\"b\".py"⟩, 18446744073709551615⟩, message := "first\nsecond\t\x01"
       position := some 0, finding := .typeOnOneSide "x" none (some "int") },
     { category := .invalidRest, severity := .info, function := "", location := ⟨⟨""⟩, 0⟩
       message := "", position := none, finding := .duplicateField .type none }]

/-- A method whose second parameter has a type and a default. -/
def Signature.sample : Signature where
  qualifiedName := "C.f"
  parameters :=
    [.plain "self" 0, ⟨"x", 18446744073709551615, .variadicKeyword, some "Dict[str, int]", true⟩]
  returnType := none
  isMethod := true
  location := ⟨⟨"pkg/c.pyi"⟩, 7⟩

/-- Settings that differ from the defaults in every respect but the severity. -/
def Settings.sample : Settings :=
  { ignores := fun c => c = .invalidRest ∨ c = .missingDocstring, requireRtypeForNone := true
    includeMethods := false, suppressionMarker := "skip", exclude := ["build"], jobs := some 4 }

theorem samples_read_back :
    (Report.sample.Fits ∧ Report.ofJson? Report.sample.toJson = some Report.sample) ∧
    (Signature.sample.Fits ∧ Signature.ofJson? Signature.sample.toJson = some Signature.sample) ∧
    (Settings.sample.Fits ∧ Settings.ofJson? Settings.sample.toJson = some Settings.sample) := by
  have hreport : Report.sample.Fits := by decide
  have hsignature : Signature.sample.Fits := by decide
  have hsettings : Settings.sample.Fits := by decide
  exact ⟨⟨hreport, records_read_back.1.report _ hreport⟩,
    ⟨hsignature, records_read_back.1.signature _ hsignature⟩,
    ⟨hsettings, records_read_back.1.settings _ hsettings⟩⟩

end DocAudit
