import DocAudit.Proofs.JsonText
import DocAudit.Proofs.RecordRoundTrip

/-!
# Proofs/MachineReport — the machine-readable report loses nothing

Both machine-readable formats print one record, the one with totals.  Its numbers are all written
with digits alone (`Report.hasNaturals_toJsonWithTotals`), so both texts read back as that record
(`Proofs/JsonText`), and the record reads back as the report (`Proofs/RecordRoundTrip`).
-/

namespace DocAudit

namespace Json

/-! ## The numbers of a record -/

attribute [simp] HasNaturals.null HasNaturals.bool HasNaturals.natural HasNaturals.string

@[simp] theorem hasNaturals_object_iff {members : List (String × Json)} :
    HasNaturals (object members) ↔ ∀ m ∈ members, HasNaturals m.2 :=
  ⟨fun h => by cases h; assumption, .object⟩

@[simp] theorem hasNaturals_ofOption_string (o : Option String) :
    HasNaturals (ofOption string o) := by
  cases o <;> simp [ofOption]

theorem hasNaturals_ofList {α : Type} {write : α → Json} {l : List α}
    (h : ∀ a ∈ l, HasNaturals (write a)) : HasNaturals (ofList write l) := by
  refine .array fun j hj => ?_
  obtain ⟨a, ha, rfl⟩ := List.mem_map.mp hj
  exact h a ha

@[simp] theorem hasNaturals_ofList_string (l : List String) : HasNaturals (ofList string l) :=
  hasNaturals_ofList fun s _ => .string s

theorem hasNaturals_of_mem_memberOf {α : Type} {write : α → Json} {key : String} {o : Option α}
    (h : ∀ a ∈ o, HasNaturals (write a)) {m : String × Json} (hm : m ∈ memberOf write key o) :
    HasNaturals m.2 := by
  rcases o with _ | a
  · cases hm
  · rw [List.mem_singleton.mp hm]
    exact h a rfl

end Json

/-! ## Reports -/

theorem Finding.hasNaturals_dataMembers (f : Finding) : ∀ m ∈ f.dataMembers, m.2.HasNaturals := by
  cases f with
  | typeOnOneSide name declared documented =>
    intro m hm
    simp only [dataMembers, List.mem_append, List.mem_singleton] at hm
    rcases hm with (rfl | hm) | hm
    · exact .string name
    · exact Json.hasNaturals_of_mem_memberOf (fun s _ => .string s) hm
    · exact Json.hasNaturals_of_mem_memberOf (fun s _ => .string s) hm
  | _ => simp [dataMembers, FieldKind.toJson]

theorem Diagnostic.hasNaturals_toJson (d : Diagnostic) : d.toJson.HasNaturals := by
  have hlocation : d.location.toJson.HasNaturals := by simp [Location.toJson, Path.toJson]
  have hfinding : d.finding.toJson.HasNaturals := by
    simpa [Finding.toJson, Category.toJson] using d.finding.hasNaturals_dataMembers
  have hposition : ∀ m ∈ Json.memberOf .natural "position" d.position, m.2.HasNaturals :=
    fun _ => Json.hasNaturals_of_mem_memberOf fun n _ => .natural n
  refine .object fun m hm => ?_
  simp only [List.mem_append, List.mem_cons, List.not_mem_nil, or_false] at hm
  rcases hm with ((rfl | rfl | rfl | rfl | rfl) | hm) | rfl
  · exact .string _
  · exact .string _
  · exact .string _
  · exact hlocation
  · exact .string _
  · exact hposition m hm
  · exact hfinding

theorem Report.hasNaturals_toJsonWithTotals (r : Report) : r.toJsonWithTotals.HasNaturals := by
  have hdiagnostics : (Json.ofList Diagnostic.toJson r.diagnostics).HasNaturals :=
    Json.hasNaturals_ofList fun d _ => d.hasNaturals_toJson
  simp [toJsonWithTotals, hdiagnostics]

/-- **The machine-readable report loses nothing** — both formats are JSON texts of one value, and
that value is the record of the report, with the totals beside it. -/
theorem machine_report_reads_back (paint : Report.Paint) {r : Report} (h : r.Fits) :
    ∃ j, Json.parse? (ReportFormat.json.render paint r) = some j ∧
      Json.parse? (ReportFormat.jsonPretty.render paint r) = some j ∧
      Report.ofJson? j = some r ∧
      j.get? "errors" = some (.natural r.errors) ∧
      j.get? "warnings" = some (.natural r.warnings) := by
  have hplain := r.hasNaturals_toJsonWithTotals
  refine ⟨r.toJsonWithTotals, Json.parse?_compact hplain, Json.parse?_pretty hplain,
    Report.ofJson?_toJsonWithTotals h, ?_, ?_⟩
  · simp [Report.toJsonWithTotals]
  · simp [Report.toJsonWithTotals]

theorem machine_report_sample_reads_back :
    Report.sample.Fits ∧
    ∃ j, Json.parse? (ReportFormat.json.render .plain Report.sample) = some j ∧
      Json.parse? (ReportFormat.jsonPretty.render .plain Report.sample) = some j ∧
      Report.ofJson? j = some Report.sample ∧
      j.get? "errors" = some (.natural 0) ∧ j.get? "warnings" = some (.natural 1) := by
  have h : Report.sample.Fits := by decide
  exact ⟨h, machine_report_reads_back .plain h⟩

end DocAudit
