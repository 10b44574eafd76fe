import Resoto.Report.Failures

/-!
# Validating a check

The spec: "All violations are collected and returned together — validators never
short-circuit." `__validate_check` checks the rules after the detection in one straight
run (`ReportCheck.ruleErrors`), and there each violated rule has its message
(`ruleErrors_eq_nil_iff`). The detection sits before them, in the same `try` and in an `if`
chain with a `return`:

* a check with no search and no command and a truthy `manual` returns `[]` at once, whatever
  else it lacks;
* a search or a command that the template expander or the CLI rejects ends the `try`: its
  message is the only one;
* a search hides a command or a `manual` flag beside it, so two detections pass.
-/

namespace Resoto

/-- Modelled from the spec: the rules on a check besides its detection, for the detection
string `detect`: "`result_kinds` non-empty and every kind's name must appear textually in
the detection string; `remediation.text` and `remediation.url` non-empty; `id`, `title`,
`risk`, `severity` non-empty". A severity is always set. -/
def ReportCheck.RulesHold (check : ReportCheck) (detect : String) : Prop :=
  check.resultKinds ≠ [] ∧ (∀ rk ∈ check.resultKinds, strContains detect rk = true) ∧
    check.remediation.text ≠ "" ∧ check.remediation.url ≠ "" ∧ check.id ≠ "" ∧
    check.title ≠ "" ∧ check.risk ≠ ""

/-- The rules after the detection report every violation: none of them is reported iff all
of them hold. -/
theorem ReportCheck.ruleErrors_eq_nil_iff (check : ReportCheck) (detect : String) :
    check.ruleErrors detect = [] ↔ check.RulesHold detect := by
  simp [ReportCheck.ruleErrors, ReportCheck.RulesHold, ReportCheck.requiredProps,
    List.filter_eq_nil_iff, and_assoc]

namespace InspectorService

variable (svc : InspectorService)

/-- **`__validate_check` stops at the detection.** It returns no message iff the check has
no search and no command and a truthy `manual`, whatever else it lacks, or its search (else
its command) goes through and the other rules hold for it, whatever other detection the
check carries. A search or command that raises is the only message, whatever else the check
lacks. -/
theorem validateCheck_eq_nil_iff (check : ReportCheck) :
    (svc.validateCheck check = [] ↔
      (check.detectValue "resoto" = none ∧ check.detectValue "resoto_cmd" = none ∧
        check.manual = true) ∨
      (∃ search, check.detectValue "resoto" = some search ∧
        (∃ q, svc.parseQuery search "reported" check.defaultEnv = .ok q) ∧ check.RulesHold search) ∨
      (check.detectValue "resoto" = none ∧ ∃ cmd, check.detectValue "resoto_cmd" = some cmd ∧
        svc.evaluateCliCommand cmd check.defaultEnv = .ok () ∧ check.RulesHold cmd)) ∧
    ∀ e, ((∃ search, check.detectValue "resoto" = some search ∧
          svc.parseQuery search "reported" check.defaultEnv = .error e) ∨
        (check.detectValue "resoto" = none ∧ ∃ cmd, check.detectValue "resoto_cmd" = some cmd ∧
          svc.evaluateCliCommand cmd check.defaultEnv = .error e)) →
      svc.validateCheck check = ["Check " ++ check.id ++ " is invalid: " ++ e.str] := by
  rcases hs : check.detectValue "resoto" with _ | search
  · rcases hc : check.detectValue "resoto_cmd" with _ | cmd
    · cases hm : check.manual <;> simp [validateCheck, hs, hc, hm]
    · cases he : svc.evaluateCliCommand cmd check.defaultEnv with
      | ok u => simp [validateCheck, hs, hc, he, ReportCheck.ruleErrors_eq_nil_iff]
      | error e => simp [validateCheck, hs, hc, he]
  · cases hp : svc.parseQuery search "reported" check.defaultEnv with
    | ok q => simp [validateCheck, hs, hp, ReportCheck.ruleErrors_eq_nil_iff]
    | error e => simp [validateCheck, hs, hp]

/-- A manual check without result kinds and without remediation. -/
def manualCheck : ReportCheck :=
  { id := "manual", provider := "aws", service := "iam", title := "Manual", categories := []
    resultKinds := [], severity := .medium, risk := "risk", remediation := ⟨"", ""⟩
    detect := [("manual", .bool true)] }

/-- **A manual check skips the rules.** The manual check has no result kind and no
remediation, and validates without a message. -/
theorem validateCheck_manualCheck :
    manualCheck.resultKinds = [] ∧ manualCheck.remediation = ⟨"", ""⟩ ∧
      twoChecksService.validateCheck manualCheck = [] :=
  ⟨rfl, rfl, rfl⟩

/-- A search the template expander rejects hides the missing remediation. -/
example : parseFailsService.validateCheck { searchCheck with remediation := ⟨"", ""⟩ } =
    ["Check search is invalid: parse error"] := by
  rfl

/-- A check with a search and a command validates without a message. -/
example : twoChecksService.validateCheck { searchCheck with
    detect := [("resoto", .str "is(aws_ec2_instance)"),
      ("resoto_cmd", .str "search is(aws_ec2_instance)")] } = [] := by
  rfl

end InspectorService

end Resoto
