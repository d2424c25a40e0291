import BrokerPolicy.Config.Load
import BrokerPolicy.Host.Package
import BrokerPolicy.Proofs.Host.Recorded

/-!
What is asked and what is changed.

Some commands leave the policies of a broker as they are: those that ask the package database, ask
the broker for a listing, or show a status (`inquiries`). Every other command counts as a change.
`Recorded.Changes answer x t calls` says which changes a procedure makes that begins after `t`, with
the answers to them. Changes of procedures one after the other add up (`Changes.bind`), and a
procedure that makes none inquires (`Inquires`).

On a host whose own doings are inquiries (`Host.Discreet`) so is everything that comes before a
policy is set or cleared: the check (`inquires_check`), the listings (`inquires_policies`) and the
loading (`inquires_loadPolicies`).
-/

namespace BrokerPolicy

/-! ### Inquiries and changes -/

/-- How the commands begin that leave the policies of a broker as they are. -/
def inquiries : List Command :=
  [["dpkg-query"], ["status-set"], [brokerTool, "list_vhosts"], [brokerTool, "list_policies"]]

/-- The command leaves the policies of a broker as they are. -/
def isInquiry (c : Command) : Bool :=
  inquiries.any (·.isPrefixOf c)

/-- A command with the answer to it. -/
abbrev Call := Command × Except CommandFailure String

variable (answer : Trace → Command → Except CommandFailure String)

/-- The calls of a trace that follows another, without the inquiries. -/
def Trace.changes (before t : Trace) : List Call :=
  (calls answer before t).filter fun call => !isInquiry call.1

/-- What changes later is told from all that happened before. -/
lemma Trace.changes_append (before t u : Trace) : changes answer before (t ++ u) =
    changes answer before t ++ changes answer (before ++ t) u := by
  rw [changes, calls_append, List.filter_append]
  rfl

namespace Recorded

variable {α β : Type} {x : Recorded α} {f : α → Recorded β} {t : Trace}

/-- A procedure that begins after `t` makes these calls, apart from inquiries. -/
def Changes (x : Recorded α) (t : Trace) (calls : List Call) : Prop :=
  ∃ events, (x.run t).2 = t ++ events ∧ Trace.changes answer t events = calls

/-- A procedure makes no calls but inquiries. -/
def Inquires (x : Recorded α) : Prop :=
  ∀ t, Changes answer x t []

variable {answer} {calls calls' : List Call}

/-- Changes made one after the other add up. -/
lemma Changes.bind (hx : Changes answer x t calls)
    (hf : Changes answer (f (x.run t).1) (x.run t).2 calls') :
    Changes answer (x >>= f) t (calls ++ calls') := by
  obtain ⟨events, hevents, rfl⟩ := hx
  rw [hevents] at hf
  obtain ⟨events', hevents', rfl⟩ := hf
  refine ⟨events ++ events', ?_, Trace.changes_append answer t events events'⟩
  rw [← List.append_assoc, ← hevents', ← hevents]
  rfl

lemma Changes.bind_inquires (hx : Changes answer x t calls) (hf : ∀ a, Inquires answer (f a)) :
    Changes answer (x >>= f) t calls := by
  have h := hx.bind (hf (x.run t).1 (x.run t).2)
  rwa [List.append_nil] at h

lemma Inquires.bind_changes (hx : Inquires answer x)
    (hf : Changes answer (f (x.run t).1) (x.run t).2 calls) : Changes answer (x >>= f) t calls :=
  (hx t).bind hf

/-- To inquire twice is to inquire. -/
lemma Inquires.bind (hx : Inquires answer x) (hf : ∀ a, Inquires answer (f a)) :
    Inquires answer (x >>= f) :=
  fun t => (hx t).bind_inquires hf

lemma Inquires.pure (a : α) : Inquires answer (Pure.pure a) :=
  fun t => ⟨[], (List.append_nil t).symm, rfl⟩

lemma Inquires.map (hx : Inquires answer x) (f : α → β) : Inquires answer (f <$> x) :=
  hx

lemma Inquires.log (event : LogEvent) : Inquires answer (Recorded.log event) :=
  fun _ => ⟨[.log event], rfl, rfl⟩

/-- A command that only inquires changes nothing. -/
lemma Inquires.runner {c : Command} (h : isInquiry c = true) :
    Inquires answer (Recorded.runner answer c) := by
  refine fun t => ⟨[.command c], rfl, ?_⟩
  rw [Trace.changes, Trace.calls, Trace.calls, List.filter_eq_nil_iff]
  intro call hcall
  rw [List.mem_singleton.1 hcall, h]
  exact Bool.false_ne_true

/-- Any other command is a change, with its answer. -/
lemma Changes.runner {c : Command} (h : isInquiry c = false) (t : Trace) :
    Changes answer (Recorded.runner answer c) t [(c, answer t c)] := by
  refine ⟨[.command c], rfl, ?_⟩
  rw [Trace.changes, Trace.calls, Trace.calls, List.filter_eq_self]
  intro call hcall
  rw [List.mem_singleton.1 hcall, h]
  rfl

end Recorded

/-! ### Hosts -/

open Recorded

/-- Apart from the commands that it is told to run, the host does nothing but inquire. -/
structure Host.Discreet (host : Host Recorded) : Prop where
  run : host.run = Recorded.runner answer
  compareVersion : ∀ package version, Inquires answer (host.compareVersion package version)
  setStatus : ∀ state message, Inquires answer (host.setStatus state message)
  log : ∀ event, Inquires answer (host.log event)

variable {answer} {host : Host Recorded}

lemma inquires_compareInstalled (package version : String) :
    Inquires answer (Host.compareInstalled (Recorded.runner answer) package version) :=
  ((Inquires.runner rfl).bind fun _ => Inquires.pure _).bind fun _ => Inquires.pure _

namespace Policy

/-- Whatever is said about a version, nothing is changed. -/
lemma inquires_acceptMirroring (hhost : host.Discreet answer) (p : Policy)
    (installed : Except PolicyError Ordering) :
    Inquires answer (p.acceptMirroring host installed) := by
  cases installed with
  | error e => exact (hhost.log _).bind fun _ => Inquires.pure _
  | ok order =>
      cases order with
      | lt => exact (hhost.log _).bind fun _ => (hhost.log _).bind fun _ => Inquires.pure _
      | eq => exact Inquires.pure _
      | gt => exact Inquires.pure _

/-- A check changes nothing, also where it asks for a version. -/
lemma inquires_check (hhost : host.Discreet answer) (p : Policy) :
    Inquires answer (p.check host) := by
  rw [check]
  cases p.kind with
  | generic => exact Inquires.pure _
  | ha =>
      refine (hhost.compareVersion _ _).bind fun installed => ?_
      exact inquires_acceptMirroring hhost p installed
  | ttl => exact Inquires.pure _

lemma inquires_reportFailure (hhost : host.Discreet answer) (p : Policy) (e : PolicyError)
    (status : String) : Inquires answer (p.reportFailure host e status) :=
  (hhost.log _).bind fun _ => hhost.setStatus _ _

end Policy

/-! ### Listings -/

namespace Query

/-- A series of questions makes no calls but inquiries, whatever format it begins with. -/
def Inquires (answer : Trace → Command → Except CommandFailure String) {α : Type}
    (x : Query Recorded α) : Prop :=
  ∀ format, Recorded.Inquires answer (x.run format)

variable {α β : Type} {x : Query Recorded α} {f : α → Query Recorded β}

lemma Inquires.bind (hx : Query.Inquires answer x) (hf : ∀ a, Query.Inquires answer (f a)) :
    Query.Inquires answer (x >>= f) :=
  fun format => (hx format).bind fun r => hf r.1 r.2

lemma Inquires.pure (a : α) : Query.Inquires answer (Pure.pure a) :=
  fun _ => Recorded.Inquires.pure _

lemma Inquires.lift {y : Recorded α} (hy : Recorded.Inquires answer y) :
    Query.Inquires answer (StateT.lift y) :=
  fun _ => hy.bind fun _ => Recorded.Inquires.pure _

/-- The format of listings is found out by a question for a version alone. -/
lemma inquires_format (hhost : host.Discreet answer) : Query.Inquires answer (format host) := by
  intro known
  cases known with
  | none =>
      have hrun : (format host).run none = do
          let compared ← host.compareVersion brokerPackage jsonVersion
          return (formatFor compared, some (formatFor compared)) := rfl
      rw [hrun]
      exact (hhost.compareVersion _ _).bind fun _ => Recorded.Inquires.pure _
  | some f => exact Recorded.Inquires.pure _

/-- A question is a command that inquires, after the one for the format. -/
lemma inquires_ask (hhost : host.Discreet answer) {arguments : List String}
    (h : ∀ f, isInquiry (command arguments f) = true) :
    Query.Inquires answer (ask host arguments) := by
  refine (inquires_format hhost).bind fun f => ?_
  have hrun : Recorded.Inquires answer (host.run (command arguments f)) := by
    rw [hhost.run]
    exact Recorded.Inquires.runner (h f)
  refine (Inquires.lift hrun).bind fun reply => ?_
  cases reply with
  | ok output => exact Inquires.pure _
  | error failure => exact Inquires.pure _

lemma inquires_vhosts (hhost : host.Discreet answer) : Query.Inquires answer (vhosts host) := by
  have hcommand (f : Format) : isInquiry (command ["list_vhosts"] f) = true := by
    cases f <;> rfl
  refine ((inquires_ask hhost hcommand).bind fun _ => Inquires.pure _).bind fun listed => ?_
  cases listed with
  | ok vhosts => exact Inquires.pure _
  | error e => exact (Inquires.lift (hhost.log _)).bind fun _ => Inquires.pure _

/-- A line that cannot be read is logged, no more. -/
lemma inquires_readTable (hhost : host.Discreet answer) (lines : List String) :
    Recorded.Inquires answer (readTable host lines) := by
  induction lines with
  | nil => exact Recorded.Inquires.pure _
  | cons line lines ih =>
      rw [readTable]
      cases Row.ofLine? line with
      | some row => exact ih.bind fun _ => Recorded.Inquires.pure _
      | none => exact (hhost.log _).bind fun _ => ih

/-- To list the policies of a virtual host changes nothing, in either format. -/
lemma inquires_tryPoliciesIn (hhost : host.Discreet answer) (vhost : String) :
    Query.Inquires answer (tryPoliciesIn host vhost) := by
  have hcommand (f : Format) : isInquiry (command ["list_policies", "-p", vhost] f) = true := by
    cases f <;> rfl
  refine (inquires_ask hhost hcommand).bind fun reply => ?_
  cases reply with
  | error e => exact Inquires.pure _
  | ok listing =>
      refine Inquires.lift ?_
      obtain ⟨f, output⟩ := listing
      cases f with
      | json => exact Recorded.Inquires.pure _
      | table => exact (inquires_readTable hhost _).bind fun _ => Recorded.Inquires.pure _

lemma inquires_policiesFrom (hhost : host.Discreet answer) (listed : List Row)
    (vhosts : List String) : Query.Inquires answer (policiesFrom host listed vhosts) := by
  induction vhosts generalizing listed with
  | nil => exact Inquires.pure _
  | cons vhost vhosts ih =>
      refine (inquires_tryPoliciesIn hhost vhost).bind fun reply => ?_
      cases reply with
      | ok rows => exact ih (listed ++ rows)
      | error e => exact (Inquires.lift (hhost.log _)).bind fun _ => Inquires.pure _

lemma inquires_policies (hhost : host.Discreet answer) : Query.Inquires answer (policies host) :=
  (inquires_vhosts hhost).bind fun vhosts => inquires_policiesFrom hhost [] vhosts

end Query

/-! ### Loading -/

/-- Loading asks for the virtual hosts at most. -/
lemma Policy.inquires_loadPolicies (hhost : host.Discreet answer) (path : String)
    (file : FileContent) (relation : Option String) :
    Query.Inquires answer (loadPolicies host path file relation) := by
  rw [loadPolicies]
  cases configured path file relation with
  | error e => exact Query.Inquires.pure _
  | ok ps =>
      have hexpand : Query.Inquires answer (expandOn host ps) := by
        rw [expandOn]
        split
        · exact (Query.inquires_vhosts hhost).bind fun _ => Query.Inquires.pure _
        · exact Query.Inquires.pure _
      refine hexpand.bind fun _ => ?_
      exact (Query.Inquires.lift (hhost.log _)).bind fun _ => Query.Inquires.pure _

end BrokerPolicy
