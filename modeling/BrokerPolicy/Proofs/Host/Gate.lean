import BrokerPolicy.Host.Package
import BrokerPolicy.Listing.Query
import BrokerPolicy.Proofs.Host.Recorded
import BrokerPolicy.Proofs.Version.Order

/-!
What a broker is taken to be able to do, by its installed version.

Mirroring and listings in JSON are each open from a version on. What the package database answers
decides alone whether they are (`check_packaged`, `supportsJson_packaged`): `Reaches` says that the
version which is read from the answer is known and not below the required one. It is kept by a later
version (`Reaches.of_le`) and by a lower requirement (`Reaches.of_required_le`), since version texts
are in a total preorder. An answer without a version reaches nothing, and then a mirroring is passed
over without a word to the broker or the operator (`apply_packaged`).
-/

namespace BrokerPolicy

open Host Version

variable {answer : Trace → Command → Except CommandFailure String} {p : Policy} {t : Trace}

/-! ### The package database -/

/-- The recorded host that asks the package database for versions. -/
def Recorded.packaged (answer : Trace → Command → Except CommandFailure String) :
    Host Recorded where
  run := runner answer
  compareVersion := compareInstalled (runner answer)
  setStatus := status
  log := log

/-- What the package database answers about the broker, after all that happened before. -/
def brokerAnswer (answer : Trace → Command → Except CommandFailure String) (t : Trace) :
    Except CommandFailure String :=
  answer t (versionQuery brokerPackage)

/-- The answer gives a version that is not below the required one. -/
def Reaches (required : String) (reply : Except CommandFailure String) : Prop :=
  ∃ installed, readInstalled brokerPackage reply = .ok installed ∧
    (compareText required installed).isLE = true

namespace Reaches

variable {required required' : String} {reply : Except CommandFailure String}

/-- An answer that is no blank reaches a version exactly if it is not smaller. -/
lemma iff_of_ok {output : String} (h : Text.trim output ≠ "") :
    Reaches required (.ok output) ↔ (compareText required (Text.trim output)).isLE = true := by
  have hread : readInstalled brokerPackage (.ok output) = .ok (Text.trim output) := if_neg h
  rw [Reaches, hread]
  constructor
  · rintro ⟨installed, hinstalled, hle⟩
    obtain rfl := Except.ok.inj hinstalled
    exact hle
  · exact fun hle => ⟨_, rfl, hle⟩

/-- A later version reaches what an earlier one does. -/
lemma of_le {output output' : String} (h : Reaches required (.ok output))
    (houtput : Text.trim output ≠ "") (houtput' : Text.trim output' ≠ "")
    (hle : compareText (Text.trim output) (Text.trim output') ≠ .gt) :
    Reaches required (.ok output') := by
  rw [iff_of_ok houtput] at h
  rw [iff_of_ok houtput']
  exact Std.TransCmp.isLE_trans h (Ordering.isLE_iff_ne_gt.2 hle)

/-- What reaches a version reaches those below it. -/
lemma of_required_le (h : Reaches required' reply)
    (hle : compareText required required' ≠ .gt) : Reaches required reply := by
  obtain ⟨installed, hinstalled, hreached⟩ := h
  exact ⟨installed, hinstalled, Std.TransCmp.isLE_trans (Ordering.isLE_iff_ne_gt.2 hle) hreached⟩

end Reaches

/-- A failed query and a blank answer give no version. -/
lemma readInstalled_of_blank {reply : Except CommandFailure String}
    (h : ∀ output, reply = .ok output → Text.trim output = "") :
    ∃ e, readInstalled brokerPackage reply = .error e := by
  cases reply with
  | error failure => exact ⟨_, rfl⟩
  | ok output => exact ⟨_, if_pos (h output rfl)⟩

/-! ### The two gates -/

/-- The package is found, and not to be older. -/
def Current (compared : Except PolicyError Ordering) : Prop :=
  ∃ order, compared = .ok order ∧ order ≠ .lt

/-- A version that cannot be told opens no gate. -/
lemma not_current_error (e : PolicyError) : ¬Current (.error e) :=
  fun ⟨_, h, _⟩ => by cases h

/-- A version that can be told opens the gate unless it is smaller. -/
lemma current_ok_iff {order : Ordering} : Current (.ok order) ↔ order ≠ .lt := by
  constructor
  · rintro ⟨_, h, hlt⟩
    rwa [Except.ok.inj h]
  · exact fun hlt => ⟨order, rfl, hlt⟩

/-- The comparison that the gates make is that of the answer with the requirement. -/
lemma current_iff_reaches {required : String} {reply : Except CommandFailure String} :
    Current ((readInstalled brokerPackage reply).map (compareText · required)) ↔
      Reaches required reply := by
  rw [Reaches]
  cases readInstalled brokerPackage reply with
  | error e => exact iff_of_false (not_current_error e) fun ⟨_, h, _⟩ => by cases h
  | ok installed =>
      simp only [Except.map, current_ok_iff, Except.ok.injEq, exists_eq_left',
        ← Ordering.isGE_iff_ne_lt, Std.OrientedCmp.isGE_iff_isLE]

/-- Mirroring is accepted exactly if its gate is open. -/
lemma acceptMirroring_run {σ : Type} {host : Host (StateM σ)} {s : σ}
    {compared : Except PolicyError Ordering} :
    ((p.acceptMirroring host compared).run s).1 = true ↔ Current compared := by
  cases compared with
  | error e => exact iff_of_false Bool.false_ne_true (not_current_error e)
  | ok order =>
      rw [current_ok_iff]
      cases order with
      | lt => exact iff_of_false Bool.false_ne_true (not_not_intro rfl)
      | eq => exact iff_of_true rfl (by decide)
      | gt => exact iff_of_true rfl (by decide)

/-- Listings are asked for in JSON exactly if their gate is open. -/
lemma formatFor_eq_json {compared : Except PolicyError Ordering} :
    Query.formatFor compared = .json ↔ Current compared := by
  cases compared with
  | error e => exact iff_of_false Format.noConfusion (not_current_error e)
  | ok order =>
      rw [current_ok_iff]
      cases order <;> decide

/-- Mirroring passes from its version on. -/
lemma check_packaged (hp : p.kind = .ha) :
    ((p.check (Recorded.packaged answer)).run t).1 = true ↔
      Reaches mirroringVersion (brokerAnswer answer t) := by
  rw [← current_iff_reaches, Policy.check, hp]
  exact acceptMirroring_run

/-- Listings are in JSON from its version on. -/
lemma supportsJson_packaged :
    (((Query.supportsJson (Recorded.packaged answer)).run' none).run t).1 = true ↔
      Reaches jsonVersion (brokerAnswer answer t) := by
  rw [← current_iff_reaches, ← formatFor_eq_json]
  exact beq_iff_eq (α := Format)

/-- A mirroring for which there is no version is passed over. -/
lemma apply_packaged (hp : p.kind = .ha)
    (h : ∀ output, brokerAnswer answer t = .ok output → Text.trim output = "") :
    ∃ event, (p.apply (Recorded.packaged answer)).run t =
      (none, t ++ [.command (versionQuery brokerPackage), .log event]) := by
  obtain ⟨e, he⟩ := readInstalled_of_blank h
  obtain ⟨event, hevent⟩ : ∃ event, ∀ s, (p.acceptMirroring (Recorded.packaged answer)
      (.error e)).run s = (false, s ++ [.log event]) := ⟨_, fun _ => rfl⟩
  -- the log entry depends on how the question failed, so it is only known to exist here
  have hcheck : (p.check (Recorded.packaged answer)).run t =
      (false, t ++ [.command (versionQuery brokerPackage), .log event]) := by
    rw [Policy.check, hp]
    dsimp only
    rw [StateT.run_bind]
    show (p.acceptMirroring (Recorded.packaged answer) ((readInstalled brokerPackage
      (brokerAnswer answer t)).map (compareText · mirroringVersion))).run
        (t ++ [.command (versionQuery brokerPackage)]) = _
    rw [he, Except.map, hevent, List.append_assoc]
    rfl
  refine ⟨event, ?_⟩
  rw [Policy.apply, Policy.tryApply, bind_assoc, StateT.run_bind, hcheck]
  rfl

/-- **The version gates are monotone, nested and closed**: on hosts whose versions come from the
package database, a later version of the broker opens what an earlier one does; the same answer that
opens listings in JSON opens mirroring; and without a version both are closed, and applying a
mirroring asks for the version and does nothing else. -/
theorem check_supportsJson_gated
    (answer answer' : Trace → Command → Except CommandFailure String) (t t' : Trace)
    {p p' : Policy} (hp : p.kind = .ha) (hp' : p'.kind = .ha) :
    let mirrors := ((p.check (Recorded.packaged answer)).run t).1
    let mirrors' := ((p'.check (Recorded.packaged answer')).run t').1
    let listsJson := (((Query.supportsJson (Recorded.packaged answer)).run' none).run t).1
    let listsJson' := (((Query.supportsJson (Recorded.packaged answer')).run' none).run t').1
    (∀ output output', brokerAnswer answer t = .ok output → brokerAnswer answer' t' = .ok output' →
        Text.trim output ≠ "" → Text.trim output' ≠ "" →
        compareText (Text.trim output) (Text.trim output') ≠ .gt →
        (mirrors = true → mirrors' = true) ∧ (listsJson = true → listsJson' = true)) ∧
      (brokerAnswer answer t = brokerAnswer answer' t' → listsJson = true → mirrors' = true) ∧
      ((∀ output, brokerAnswer answer t = .ok output → Text.trim output = "") →
        mirrors = false ∧ listsJson = false ∧
          ∃ events, ((p.apply (Recorded.packaged answer)).run t) = (none, t ++ events) ∧
            events.commands = [versionQuery brokerPackage] ∧ events.statuses = []) := by
  intro mirrors mirrors' listsJson listsJson'
  -- both gates ask the same question and differ in the version they require, so all three parts are
  -- facts about `Reaches`
  have hmirrors : mirrors = true ↔ _ := check_packaged hp
  have hmirrors' : mirrors' = true ↔ _ := check_packaged hp'
  have hlistsJson : listsJson = true ↔ _ := supportsJson_packaged
  have hlistsJson' : listsJson' = true ↔ _ := supportsJson_packaged
  refine ⟨fun output output' h h' hout hout' hle => ?_, fun hsame hopen => ?_, fun hblank => ?_⟩
  · rw [hmirrors, hmirrors', hlistsJson, hlistsJson', h, h']
    exact ⟨fun hreached => hreached.of_le hout hout' hle,
      fun hreached => hreached.of_le hout hout' hle⟩
  · rw [hlistsJson, hsame] at hopen
    exact hmirrors'.2 (hopen.of_required_le (by decide))
  · have hclosed (required : String) : ¬Reaches required (brokerAnswer answer t) := by
      rintro ⟨installed, hinstalled, -⟩
      obtain ⟨e, he⟩ := readInstalled_of_blank hblank
      rw [he] at hinstalled
      cases hinstalled
    obtain ⟨event, hrun⟩ := apply_packaged hp hblank
    refine ⟨?_, ?_, _, hrun, rfl, rfl⟩
    · rw [← Bool.not_eq_true, hmirrors]
      exact hclosed _
    · rw [← Bool.not_eq_true, hlistsJson]
      exact hclosed _

/-- A package database that gives the same answer to everything. -/
def constantAnswer (output : String) (_ : Trace) (_ : Command) : Except CommandFailure String :=
  .ok output

/-- A release opens both gates and so does a later one by epoch; its candidate opens only the lower
gate, and a blank answer none. -/
theorem check_supportsJson_gated_release :
    let host output := Recorded.packaged (constantAnswer output)
    let mirrors output := (((Policy.mirrored "/" "mirror" "^").check (host output)).run []).1
    let listsJson output := (((Query.supportsJson (host output)).run' none).run []).1
    compareText (Text.trim "3.8.2-1\n") (Text.trim " 1:3.0") ≠ .gt ∧
      listsJson "3.8.2-1\n" = true ∧ mirrors "3.8.2-1\n" = true ∧
      listsJson " 1:3.0" = true ∧ mirrors " 1:3.0" = true ∧
      listsJson "3.8.2~rc1-1\n" = false ∧ mirrors "3.8.2~rc1-1\n" = true ∧
      listsJson "\t\n" = false ∧ mirrors "\t\n" = false := by
  intro host mirrors listsJson
  have hkind : (Policy.mirrored "/" "mirror" "^").kind = .ha := rfl
  have hle : compareText (Text.trim "3.8.2-1\n") (Text.trim " 1:3.0") ≠ .gt := by
    decide +kernel
  have hjson : listsJson "3.8.2-1\n" = true := by
    decide +kernel
  have hcandidate : listsJson "3.8.2~rc1-1\n" = false ∧ mirrors "3.8.2~rc1-1\n" = true := by
    decide +kernel
  obtain ⟨-, hnested, -⟩ := check_supportsJson_gated (constantAnswer "3.8.2-1\n")
    (constantAnswer "3.8.2-1\n") [] [] hkind hkind
  have hmirrors : mirrors "3.8.2-1\n" = true := hnested rfl hjson
  obtain ⟨hmono, -, -⟩ := check_supportsJson_gated (constantAnswer "3.8.2-1\n")
    (constantAnswer " 1:3.0") [] [] hkind hkind
  obtain ⟨hmirrors', hjson'⟩ := hmono _ _ rfl rfl (by decide) (by decide) hle
  obtain ⟨-, -, hblank⟩ := check_supportsJson_gated (constantAnswer "\t\n")
    (constantAnswer "\t\n") [] [] hkind hkind
  obtain ⟨hclosed, hclosedJson, -⟩ := hblank fun output h => by
    obtain rfl := Except.ok.inj h
    decide
  exact ⟨hle, hjson, hmirrors, hjson' hjson, hmirrors' hmirrors, hcandidate.1, hcandidate.2,
    hclosedJson, hclosed⟩

end BrokerPolicy
