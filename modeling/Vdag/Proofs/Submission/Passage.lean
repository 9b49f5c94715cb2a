import Vdag.Memory.Tasks
import Vdag.Proofs.Document
import Vdag.Proofs.Packet
import Vdag.Submission

/-! A submission on its way from the desk to the listener. In its message the document stands one level deeper than
where it was accepted, and both texts have the same limit. -/
namespace Vdag
open Json

namespace SubmissionMessage

theorem toJsonFields (m : SubmissionMessage) :
    m.toJson = .object [("task_data", m.taskData), ("task_id", .string m.taskId)] := by
  have order : ["task_data", "task_id"].Pairwise KeyOrder.Before := by decide +kernel
  exact congrArg Value.object (SortedMap.ofListSorted order (by simp) (by simp))

theorem plainPrinted {m : SubmissionMessage} {levels : Nat} (data : Plain levels m.taskData) :
    Plain (levels + 1) m.toJson := by
  refine plainRecord ?_
  simp only [List.forall_mem_cons]
  exact ⟨.string levels m.taskId, data, List.forall_mem_nil _⟩

theorem readTree (m : SubmissionMessage) (levels : Nat) :
    SubmissionMessage.read (.text (levels + 1) m.toJson.tree) =
    (do .ok ⟨m.taskId, ← m.taskData.tree.value levels⟩) := by
  rw [toJsonFields]
  simp only [Value.tree, memberTrees]
  cases held : m.taskData.tree.value levels with
  | error fault =>
    simp [SubmissionMessage.read, FieldReader.readRecord, FieldReader.readObject, Source.members,
      FieldReader.readMembers, fields, FieldReader.mandatory, Source.any, held, bind, Except.bind]
  | ok data =>
    simp [SubmissionMessage.read, FieldReader.readRecord, FieldReader.readObject, Source.members,
      FieldReader.readMembers, fields, FieldReader.mandatory, Source.string, Source.any, held, bind, Except.bind]

end SubmissionMessage

def SubmissionMessage.payload (m : SubmissionMessage) : Bytes := Wire.textBytes m.toJson.render

/- A message is passed on as it was if its data leaves room for one level more, and given up otherwise. -/
theorem Intake.ofMessage (m : SubmissionMessage) (ordered : m.taskData.ordered = true)
    (faithful : m.taskData.faithful = true) :
    Intake.ofPayload m.payload = if m.taskData.depth < nestingLimit then .message m else .illegible := by
  obtain ⟨levels, limit⟩ : ∃ levels, nestingLimit = levels + 1 := ⟨126, rfl⟩
  have plain := SubmissionMessage.plainPrinted (m.taskData.plainOfShape ordered faithful (Nat.le_refl _))
  rw [ofPayload, SubmissionMessage.payload, Wire.textReread]
  dsimp only
  rw [readText, plain.treeOfRender, limit]
  dsimp only
  rw [m.readTree]
  by_cases shallow : m.taskData.depth < levels + 1
  · have returns := (m.taskData.plainOfShape ordered faithful (Nat.le_of_lt_succ shallow)).plainReturns
    rw [returns, if_pos shallow]
    rfl
  · obtain ⟨fault, failed⟩ := m.taskData.refusedTooDeep (Nat.lt_of_succ_le (Nat.le_of_not_lt shallow))
    rw [failed, if_neg shallow]
    rfl

structure VdagDocument.Portable (document : VdagDocument) : Prop where
  orderly : document.Orderly
  faithful : document.toJson.faithful = true
  shallow : document.toJson.depth < nestingLimit

instance (document : VdagDocument) : Decidable document.Portable :=
  decidable_of_iff (document.Orderly ∧ document.toJson.faithful = true ∧ document.toJson.depth < nestingLimit)
    ⟨fun ⟨orderly, faithful, shallow⟩ => ⟨orderly, faithful, shallow⟩,
      fun portable => ⟨portable.orderly, portable.faithful, portable.shallow⟩⟩

theorem VdagDocument.Portable.portablePasses {document : VdagDocument} (portable : document.Portable) (task : String) :
    Intake.ofPayload (SubmissionMessage.mk task document.toJson).payload = .message ⟨task, document.toJson⟩ :=
  (Intake.ofMessage ⟨task, document.toJson⟩ portable.orderly.orderedPrinted portable.faithful).trans
  (if_pos portable.shallow)

theorem VdagDocument.Portable.portableDescribed {document : VdagDocument} (portable : document.Portable) :
    Worker.definitionOf document.toJson = Definition.ofDocument document := by
  rw [Worker.definitionOf, document.readPrinted portable.orderly.graph.apart]
  exact pure_bind document Definition.ofDocument

section Submitting

variable {m : Type → Type} [Monad m] [LawfulMonad m]

theorem SubmissionDesk.submitAccepted (desk : SubmissionDesk m) {document : VdagDocument} {uri : VdagUri}
    (accepted : document.requireUri = .ok uri) : desk.submit document = (do
      let task ← desk.tasks.create processingTask document.toJson
      desk.queue.push desk.queueName (SubmissionMessage.mk task.text document.toJson).payload
      return ⟨uri, task⟩) := by
  rw [submit, accepted]
  exact pure_bind uri _

theorem submittedIntake (desk : SubmissionDesk m) {text : String} {document : VdagDocument} {uri : VdagUri}
    (read : readText VdagDocument.read text = .ok document) (faithful : document.toJson.faithful = true)
    (accepted : document.requireUri = .ok uri) :
    (desk.submit document = do
      let task ← desk.tasks.create processingTask document.toJson
      desk.queue.push desk.queueName (SubmissionMessage.mk task.text document.toJson).payload
      return ⟨uri, task⟩) ∧
    ∀ task : TaskId, Intake.ofPayload (SubmissionMessage.mk task.text document.toJson).payload =
      if document.toJson.depth < nestingLimit then .message ⟨task.text, document.toJson⟩ else .illegible := by
  have ordered := (readTextKeeps VdagDocument.readOrderly read).orderedPrinted
  exact ⟨desk.submitAccepted accepted, fun task => Intake.ofMessage ⟨task.text, document.toJson⟩ ordered faithful⟩

end Submitting

section Samples

def nested : Nat → Value
  | 0 => .null
  | levels + 1 => .array [nested levels]

def sampleSubmission (levels : Nat) : Value :=
  .object [("controller", nested levels), ("vdag_name", .string "flow"), ("vdag_version", .strings ["1", "a"])]

def sampleDocument (levels : Nat) : VdagDocument :=
  { VdagDocument.blank with name := "flow", version := ⟨"1", "a"⟩, controller := nested levels }

def sampleDesk : SubmissionDesk (StateM MemoryTasks) :=
  ⟨MemoryTasks.service 0, ⟨fun _ _ => pure (), fun _ _ => pure none⟩, "INPUTS"⟩

theorem sampleIntake :
    readText VdagDocument.read (sampleSubmission 125).render = .ok (sampleDocument 125) ∧
      Intake.ofPayload (SubmissionMessage.mk "task-1" (sampleDocument 125).toJson).payload =
        .message ⟨"task-1", (sampleDocument 125).toJson⟩ := by
  have plain := (sampleSubmission 125).plainOfShape (by decide +kernel) (by decide +kernel) (Nat.le_refl _)
  have read : readText VdagDocument.read (sampleSubmission 125).render = .ok (sampleDocument 125) := by
    rw [plain.readOfRender]
    decide +kernel
  have accepted : (sampleDocument 125).requireUri = .ok ⟨"flow:1-a"⟩ := by decide +kernel
  have passed := (submittedIntake sampleDesk read (by decide +kernel) accepted).2 ⟨"task-1"⟩
  rw [if_pos (by decide +kernel)] at passed
  exact ⟨read, passed⟩

theorem deepestLost :
    readText VdagDocument.read (sampleSubmission 126).render = .ok (sampleDocument 126) ∧
      (sampleDocument 126).requireUri = .ok ⟨"flow:1-a"⟩ ∧
        Intake.ofPayload (SubmissionMessage.mk "task-1" (sampleDocument 126).toJson).payload = .illegible := by
  have plain := (sampleSubmission 126).plainOfShape (by decide +kernel) (by decide +kernel) (Nat.le_refl _)
  have read : readText VdagDocument.read (sampleSubmission 126).render = .ok (sampleDocument 126) := by
    rw [plain.readOfRender]
    decide +kernel
  have lost := Intake.ofMessage ⟨"task-1", (sampleDocument 126).toJson⟩ (by decide +kernel) (by decide +kernel)
  rw [if_neg (by decide +kernel)] at lost
  exact ⟨read, by decide +kernel, lost⟩

end Samples

end Vdag
