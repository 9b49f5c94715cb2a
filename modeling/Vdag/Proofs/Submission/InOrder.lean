import Mathlib.Data.List.Nodup
import Vdag.Proofs.Registry.DryRun
import Vdag.Proofs.SortedMap
import Vdag.Proofs.Submission.Office

/-! Whatever the errands, the tasks of an office end as if the accepted vDAGs had been mapped one after the other. -/
namespace Vdag
open Vdag.Action

/- The state of things between two errands: some tickets are done, some moved to the channel, and the others wait in the
queue. -/
structure Accounts {σ : Type} (staff : Staff σ) (start now : Office σ) (done moved waiting : List Ticket) : Prop where
  world : now.world = (staff.inOrder done start.world).2
  journal : now.journal = start.journal ++ (staff.inOrder done start.world).1
  channel : now.channel = moved.map Ticket.message
  queued : now.queue.waiting staff.queueName = waiting.map (·.message.payload)
  created : now.tasks.created = start.tasks.created + (done ++ (moved ++ waiting)).length
  ended : List.Forall₂ now.Ended done (staff.inOrder done start.world).1
  pending : ∀ ticket ∈ moved ++ waiting, now.Pending ticket
  others : ∀ id, (∀ ticket ∈ done ++ (moved ++ waiting), ticket.task ≠ id) →
    now.tasks.tasks.find? id = start.tasks.tasks.find? id

section Tickets

theorem issuedAppend (created : Nat) (documents later : List VdagDocument) :
    Ticket.issued created (documents ++ later) = Ticket.issued created documents ++
      Ticket.issued (created + (Ticket.issued created documents).length) later := by
  induction documents generalizing created with
  | nil => rfl
  | cons document rest ih =>
    rw [List.cons_append, Ticket.issued, Ticket.issued]
    cases document.accepted? with
    | none => exact ih created
    | some vdag =>
      dsimp only
      rw [ih, List.cons_append, List.length_cons, Nat.add_assoc, Nat.add_comm 1]

theorem issuedTasks (created : Nat) (documents : List VdagDocument) :
    (Ticket.issued created documents).map Ticket.task =
      (List.range' (created + 1) (Ticket.issued created documents).length).map MemoryTasks.idOf := by
  induction documents generalizing created with
  | nil => rfl
  | cons document rest ih =>
    rw [Ticket.issued]
    cases document.accepted? with
    | none => exact ih created
    | some vdag =>
      dsimp only
      rw [List.map_cons, ih, List.length_cons, List.range'_succ, List.map_cons]

theorem idOfInjective : Function.Injective MemoryTasks.idOf := by
  intro a b same
  have texts : (toString a).toList = (toString b).toList := by
    have whole := congrArg (fun id : TaskId => id.text.toList) same
    simpa only [MemoryTasks.idOf, String.toList_append, List.append_cancel_left_eq] using whole
  exact Json.decimalInjective (Nat.toList_repr.symm.trans (texts.trans Nat.toList_repr))

theorem issuedDistinct (created : Nat) (documents : List VdagDocument) :
    ((Ticket.issued created documents).map Ticket.task).Nodup := by
  rw [issuedTasks]
  exact (List.nodup_range' ..).map idOfInjective

theorem issuedCarried {created : Nat} {documents : List VdagDocument}
    (portable : ∀ document ∈ documents, document.Portable) :
    ∀ ticket ∈ Ticket.issued created documents, ticket.Carried := by
  induction documents generalizing created with
  | nil => nofun
  | cons document rest ih =>
    obtain ⟨first, others⟩ := List.forall_mem_cons.mp portable
    rw [Ticket.issued]
    cases accepted : document.accepted? with
    | none => exact ih others
    | some vdag => exact List.forall_mem_cons.mpr ⟨⟨first, accepted⟩, ih others⟩

end Tickets

section Steps

variable {σ : Type} {staff : Staff σ} {start now : Office σ} {done moved waiting : List Ticket} {ticket : Ticket}

theorem Accounts.accountsSubmit (accounts : Accounts staff start now done moved waiting) {document : VdagDocument}
    {vdag : Definition} (accepted : document.accepted? = some vdag)
    (fresh : ∀ ticket ∈ done ++ (moved ++ waiting), ticket.task ≠ MemoryTasks.idOf (now.tasks.created + 1)) :
    Accounts staff start (staff.serve now (.submit document)) done moved
      (waiting ++ [⟨MemoryTasks.idOf (now.tasks.created + 1), document, vdag⟩]) := by
  have known := document.acceptedCases
  rw [accepted] at known
  obtain ⟨_, uri, named⟩ := known
  have answered : on (staff.desk.submit document) now = _ := submitAccepted named now
  have served : staff.serve now (.submit document) = _ := congrArg Prod.snd answered
  obtain ⟨fresh, unhandled⟩ := List.forall_mem_append.mp fresh
  rw [served]
  constructor
  case world => exact accounts.world
  case journal => exact accounts.journal
  case channel => exact accounts.channel
  case queued =>
    rw [List.map_append, ← accounts.queued]
    exact congrArg (Option.getD · []) (SortedMap.findInsertSelf now.queue.queues staff.queueName _)
  case created =>
    rw [← List.append_assoc, ← List.append_assoc, List.length_append, List.append_assoc]
    exact congrArg (· + 1) accounts.created
  case ended =>
    refine ((List.forall₂_and_left _ _).mpr ⟨fresh, accounts.ended⟩).imp (fun ticket update known => ?_)
    exact known.2.endedKept (SortedMap.findInsertOther _ _ known.1)
  case pending =>
    intro ticket member
    rw [← List.append_assoc] at member
    rcases List.mem_append.mp member with old | new
    · exact (accounts.pending ticket old).pendingKept (SortedMap.findInsertOther _ _ (unhandled ticket old))
    · rw [List.mem_singleton.mp new]
      exact ⟨_, SortedMap.findInsertSelf _ _ _⟩
  case others =>
    intro id apart
    rw [← List.append_assoc, ← List.append_assoc] at apart
    obtain ⟨old, new⟩ := List.forall_mem_append.mp apart
    rw [List.append_assoc] at old
    exact (SortedMap.findInsertOther _ _ (new _ List.mem_cons_self).symm).trans (accounts.others id old)

theorem Accounts.accountsListen (accounts : Accounts staff start now done moved (ticket :: waiting))
    (portable : ticket.document.Portable) :
    Accounts staff start (staff.serve now .listen) done (moved ++ [ticket]) waiting := by
  have payload : Intake.ofPayload ticket.message.payload = .message ticket.message :=
    portable.portablePasses ticket.task.text
  have heard := nextWaiting accounts.queued
  rw [payload] at heard
  have served : staff.serve now .listen = { now with
      channel := now.channel ++ [ticket.message]
      queue := ⟨now.queue.queues.insert staff.queueName (waiting.map (·.message.payload))⟩ } := by
    rw [Staff.serve, Staff.listen, heard]
  rw [served]
  have same : moved ++ [ticket] ++ waiting = moved ++ ticket :: waiting := by simp
  constructor
  case world => exact accounts.world
  case journal => exact accounts.journal
  case channel => rw [accounts.channel, List.map_append]; rfl
  case queued => exact congrArg (Option.getD · []) (SortedMap.findInsertSelf now.queue.queues staff.queueName _)
  case created => rw [same]; exact accounts.created
  case ended => exact accounts.ended
  case pending => rw [same]; exact accounts.pending
  case others => rw [same]; exact accounts.others

theorem Accounts.hearNothing (accounts : Accounts staff start now done moved []) :
    staff.serve now .listen = now := by
  rw [Staff.serve, Staff.listen, nextNothing accounts.queued]

theorem inOrderLast (staff : Staff σ) (done : List Ticket) (ticket : Ticket) (world : σ) :
    staff.inOrder (done ++ [ticket]) world =
      let before := staff.inOrder done world
      let ran := on (staff.processor.mapToBlocks ticket.vdag) before.2
      (before.1 ++ [ticket.ending ran.1], ran.2) := by
  rw [Staff.inOrder, List.mapM_append]
  rfl

theorem Accounts.accountsWork (accounts : Accounts staff start now done (ticket :: moved) waiting)
    (carried : ticket.Carried) (distinct : ((done ++ (ticket :: moved ++ waiting)).map Ticket.task).Nodup) :
    Accounts staff start (staff.serve now .work) (done ++ [ticket]) moved waiting := by
  obtain ⟨time, known⟩ := accounts.pending ticket List.mem_cons_self
  have apart : ∀ other ∈ done ++ (moved ++ waiting), other.task ≠ ticket.task := by
    rw [List.cons_append, List.map_append, List.map_cons, List.nodup_middle, ← List.map_append] at distinct
    exact fun other member same => (List.nodup_cons.mp distinct).1 (same ▸ List.mem_map_of_mem member)
  obtain ⟨before, after⟩ := List.forall_mem_append.mp apart
  have last := inOrderLast staff done ticket start.world
  dsimp only at last
  rw [← accounts.world] at last
  have sameTickets : done ++ [ticket] ++ (moved ++ waiting) = done ++ (ticket :: moved ++ waiting) := by simp
  rw [serveWork carried accounts.channel known, Staff.handled]
  constructor
  case world => rw [last]
  case journal =>
    dsimp only
    rw [last, accounts.journal, List.append_assoc]
  case channel => rfl
  case queued => exact accounts.queued
  case created => rw [sameTickets]; exact accounts.created
  case ended =>
    rw [last]
    have others := (List.forall₂_and_left _ _).mpr ⟨before, accounts.ended⟩
    refine List.rel_append (others.imp (fun other update known => ?_)) (.cons ?_ .nil)
    · exact known.2.endedKept (SortedMap.findInsertOther _ _ known.1)
    · exact ⟨time, _, SortedMap.findInsertSelf _ _ _⟩
  case pending =>
    intro other member
    have pending := accounts.pending other (List.mem_cons_of_mem ticket member)
    exact pending.pendingKept (SortedMap.findInsertOther _ _ (after other member))
  case others =>
    rw [sameTickets]
    intro id strange
    have other : id ≠ ticket.task := (strange ticket (by simp)).symm
    exact (SortedMap.findInsertOther _ _ other).trans (accounts.others id strange)

theorem Accounts.restIdle (accounts : Accounts staff start now done [] waiting) : staff.serve now .work = now := by
  have channel : now.channel = [] := accounts.channel
  rw [Staff.serve, Staff.work, channel]

end Steps

section Runs

variable {σ : Type} {staff : Staff σ} {start now : Office σ} {done moved waiting tickets : List Ticket}
  {documents : List VdagDocument} {errands : List Errand}

theorem Accounts.accountsOpening (idle : start.Idle staff.queueName) : Accounts staff start start [] [] [] where
  world := rfl
  journal := (List.append_nil _).symm
  channel := idle.channel
  queued := idle.queue
  created := rfl
  ended := .nil
  pending := nofun
  others _ _ := rfl

theorem runAppend (office : Office σ) (errands later : List Errand) :
    staff.run office (errands ++ later) = staff.run (staff.run office errands) later := List.foldl_append

theorem submittedAppend (errands later : List Errand) :
    Errand.submitted (errands ++ later) = Errand.submitted errands ++ Errand.submitted later := List.filterMap_append

def Staff.Accounted (staff : Staff σ) (start now : Office σ) (tickets : List Ticket) : Prop :=
  ∃ done moved waiting, tickets = done ++ (moved ++ waiting) ∧ Accounts staff start now done moved waiting

theorem serveAccounted (accounted : staff.Accounted start now (Ticket.issued start.tasks.created documents))
    (portable : ∀ document ∈ documents, document.Portable) (errand : Errand) :
    staff.Accounted start (staff.serve now errand)
      (Ticket.issued start.tasks.created (documents ++ Errand.submitted [errand])) := by
  obtain ⟨done, moved, waiting, same, accounts⟩ := accounted
  have carried : ∀ ticket ∈ done ++ (moved ++ waiting), ticket.Carried := same ▸ issuedCarried portable
  cases errand with
  | submit document =>
    have distinct := issuedDistinct start.tasks.created (documents ++ [document])
    have issued := issuedAppend start.tasks.created documents [document]
    rw [same, ← accounts.created, Ticket.issued] at issued
    rw [issued] at distinct
    rw [show documents ++ Errand.submitted [.submit document] = documents ++ [document] from rfl, issued]
    cases accepted : document.accepted? with
    | none =>
      have known := document.acceptedCases
      rw [accepted] at known
      obtain ⟨failure, refused⟩ := known
      have answered : on (staff.desk.submit document) now = _ := submitRejected refused now
      have served : staff.serve now (.submit document) = now := congrArg Prod.snd answered
      rw [served]
      exact ⟨done, moved, waiting, by simp [Ticket.issued], accounts⟩
    | some vdag =>
      rw [accepted, List.map_append, List.nodup_append] at distinct
      refine ⟨done, moved, waiting ++ [⟨MemoryTasks.idOf (now.tasks.created + 1), document, vdag⟩],
        by simp [Ticket.issued], accounts.accountsSubmit accepted (fun ticket member => ?_)⟩
      exact distinct.2.2 ticket.task (List.mem_map_of_mem member) _ List.mem_cons_self
  | listen =>
    rw [show documents ++ Errand.submitted [.listen] = documents from List.append_nil documents, same]
    -- The oldest ticket that waits, if any, moves on to the worker.
    cases waiting with
    | nil =>
      rw [accounts.hearNothing]
      exact ⟨done, moved, [], rfl, accounts⟩
    | cons ticket waiting =>
      exact ⟨done, moved ++ [ticket], waiting, by simp, accounts.accountsListen (carried ticket (by simp)).portable⟩
  | work =>
    rw [show documents ++ Errand.submitted [.work] = documents from List.append_nil documents, same]
    -- The oldest ticket that has moved on, if any, is done; no later one has its task.
    cases moved with
    | nil =>
      rw [accounts.restIdle]
      exact ⟨done, [], waiting, rfl, accounts⟩
    | cons ticket moved =>
      have distinct := issuedDistinct start.tasks.created documents
      rw [same] at distinct
      exact ⟨done ++ [ticket], moved, waiting, by simp, accounts.accountsWork (carried ticket (by simp)) distinct⟩

theorem runAccounted (accounted : staff.Accounted start now (Ticket.issued start.tasks.created documents))
    (portable : ∀ document ∈ documents ++ Errand.submitted errands, document.Portable) :
    staff.Accounted start (staff.run now errands)
      (Ticket.issued start.tasks.created (documents ++ Errand.submitted errands)) := by
  induction errands generalizing now documents with
  | nil =>
    rw [show documents ++ Errand.submitted [] = documents from List.append_nil documents]
    exact accounted
  | cons errand rest ih =>
    have split : documents ++ Errand.submitted (errand :: rest) =
        documents ++ Errand.submitted [errand] ++ Errand.submitted rest := by
      rw [List.append_assoc, ← submittedAppend]
      rfl
    rw [split] at portable ⊢
    have served := serveAccounted accounted (fun document member => portable document (by simp [member])) errand
    exact ih served portable

theorem listenAll (accounts : Accounts staff start now done moved waiting)
    (portable : ∀ ticket ∈ waiting, ticket.document.Portable) {n : Nat} (enough : waiting.length ≤ n) :
    Accounts staff start (staff.run now (List.replicate n .listen)) done (moved ++ waiting) [] := by
  induction n generalizing now moved waiting with
  | zero =>
    rw [List.length_eq_zero_iff.mp (Nat.le_zero.mp enough)] at accounts ⊢
    rwa [List.append_nil]
  | succ n ih =>
    rw [List.replicate_succ]
    cases waiting with
    | nil =>
      change Accounts staff start (staff.run (staff.serve now .listen) _) _ _ _
      rw [accounts.hearNothing]
      exact ih accounts portable (Nat.zero_le n)
    | cons ticket waiting =>
      obtain ⟨first, others⟩ := List.forall_mem_cons.mp portable
      have heard := ih (accounts.accountsListen first) others (Nat.le_of_succ_le_succ enough)
      rwa [List.append_assoc] at heard

theorem workAll (accounts : Accounts staff start now done moved waiting)
    (carried : ∀ ticket ∈ moved, ticket.Carried)
    (distinct : ((done ++ (moved ++ waiting)).map Ticket.task).Nodup) {n : Nat} (enough : moved.length ≤ n) :
    Accounts staff start (staff.run now (List.replicate n .work)) (done ++ moved) [] waiting := by
  induction n generalizing now done moved with
  | zero =>
    rw [List.length_eq_zero_iff.mp (Nat.le_zero.mp enough)] at accounts ⊢
    rwa [List.append_nil]
  | succ n ih =>
    rw [List.replicate_succ]
    cases moved with
    | nil =>
      change Accounts staff start (staff.run (staff.serve now .work) _) _ _ _
      rw [accounts.restIdle]
      exact ih accounts carried distinct (Nat.zero_le n)
    | cons ticket moved =>
      obtain ⟨first, others⟩ := List.forall_mem_cons.mp carried
      have worked := ih (accounts.accountsWork first distinct) others (by simpa using distinct)
        (Nat.le_of_succ_le_succ enough)
      rwa [List.append_assoc] at worked

theorem Accounts.idleFinished (accounts : Accounts staff start now done moved waiting)
    (idle : now.Idle staff.queueName) : moved = [] ∧ waiting = [] :=
  ⟨List.map_eq_nil_iff.mp (accounts.channel.symm.trans idle.channel),
    List.map_eq_nil_iff.mp (accounts.queued.symm.trans idle.queue)⟩

theorem issuedLength (created : Nat) (documents : List VdagDocument) :
    (Ticket.issued created documents).length ≤ documents.length := by
  induction documents generalizing created with
  | nil => exact Nat.le_refl 0
  | cons document rest ih =>
    rw [Ticket.issued]
    cases document.accepted? with
    | none => exact Nat.le_succ_of_le (ih created)
    | some vdag => exact Nat.succ_le_succ (ih (created + 1))

/- Whatever the errands, every accepted document has its own task, which waits until it is told once how its vDAG went;
the vDAGs are mapped in the order in which they were submitted, each in the world that the ones before it have left; and
a few errands more bring all of them to their end. -/
theorem submissionsInOrder (idle : start.Idle staff.queueName) (errands : List Errand)
    (portable : ∀ document ∈ Errand.submitted errands, document.Portable) :
    let tickets := Ticket.issued start.tasks.created (Errand.submitted errands)
    (tickets.map Ticket.task).Nodup ∧
    staff.Accounted start (staff.run start errands) tickets ∧
    ((staff.run start errands).Idle staff.queueName → Accounts staff start (staff.run start errands) tickets [] []) ∧
    Accounts staff start (staff.run start (errands ++ Errand.closing errands)) tickets [] [] ∧
    ∀ (document : VdagDocument) (office : Office σ), match document.accepted? with
      | none => ∃ failure, document.requireUri = .error failure ∧
          on (staff.desk.submit document) office = (.error failure, office)
      | some _ => ∃ uri, document.requireUri = .ok uri ∧
          (on (staff.desk.submit document) office).1 = .ok ⟨uri, MemoryTasks.idOf (office.tasks.created + 1)⟩ := by
  intro tickets
  have distinct : (tickets.map Ticket.task).Nodup := issuedDistinct _ _
  have opened : staff.Accounted start start (Ticket.issued start.tasks.created []) :=
    ⟨[], [], [], rfl, .accountsOpening idle⟩
  have accounted : staff.Accounted start (staff.run start errands) tickets := runAccounted opened portable
  refine ⟨distinct, accounted, ?idle, ?closing, submitAnswers⟩
  all_goals obtain ⟨done, moved, waiting, same, accounts⟩ := accounted
  case idle =>
    intro idle
    obtain ⟨rfl, rfl⟩ := accounts.idleFinished idle
    rw [same, List.append_nil, List.append_nil]
    exact accounts
  case closing =>
    have carried : ∀ ticket ∈ done ++ (moved ++ waiting), ticket.Carried := same ▸ issuedCarried portable
    obtain ⟨carriedMoved, carriedWaiting⟩ := List.forall_mem_append.mp (List.forall_mem_append.mp carried).2
    have few : (done ++ (moved ++ waiting)).length ≤ errands.length :=
      same ▸ (issuedLength _ _).trans (List.length_filterMap_le _ _)
    rw [List.length_append, List.length_append] at few
    rw [same] at distinct
    -- As many rounds as there were errands are enough: no errand adds more than one ticket.
    have heard := listenAll accounts (fun ticket member => (carriedWaiting ticket member).portable)
      (show waiting.length ≤ errands.length by omega)
    have enough : (moved ++ waiting).length ≤ errands.length := by
      rw [List.length_append]
      omega
    have worked := workAll heard (List.forall_mem_append.mpr ⟨carriedMoved, carriedWaiting⟩) (by simpa using distinct)
      enough
    rw [same, runAppend, Errand.closing, runAppend]
    exact worked

end Runs

section Samples

def sampleStaff : Staff (MemoryRegistry × Unit) := ⟨Surroundings.sampleOutside.processor, "INPUTS", Int64.ofNat⟩

def sampleOffice : Office (MemoryRegistry × Unit) := ⟨(.empty, ()), .empty, .empty, [], [], 0⟩

def sampleErrands : List Errand := [.submit Surroundings.sampleLeaf.toDocument, .listen, .submit .blank,
  .submit Surroundings.sampleTop.toDocument, .work, .submit Surroundings.sampleLeaf.toDocument]

theorem sampleInOrder :
    (∀ document ∈ Errand.submitted sampleErrands, document.Portable) ∧
      (sampleStaff.run sampleOffice (sampleErrands ++ Errand.closing sampleErrands)).journal.map
          (fun update => (update.id.text, update.status)) =
        [("task-1", .completed), ("task-2", .completed), ("task-3", .failed)] := by
  have idle : sampleOffice.Idle sampleStaff.queueName := ⟨rfl, rfl⟩
  have portable : ∀ document ∈ Errand.submitted sampleErrands, document.Portable := by decide +kernel
  obtain ⟨_, _, _, closed, _⟩ := submissionsInOrder idle sampleErrands portable
  refine ⟨portable, ?_⟩
  rw [closed.journal]
  decide +kernel

end Samples

end Vdag
