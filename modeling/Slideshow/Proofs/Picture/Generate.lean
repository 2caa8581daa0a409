import Slideshow.Picture.Generate
import Slideshow.Proofs.Outcome
import Slideshow.Proofs.Render.Write

/-
  This file proves what a generator is asked for a picture,
  and what its reply does to the files.

  A generator is any function with a state of its own.  Its
  calls are written down in a log (`ImageGenerator.logged`),
  so that it can be said how often it is called, with what,
  and what it replied.  All else follows from the reply,
  which is saved on its own (`ImageRequest.save`).

  Key definitions include:
    * `ImageCall`
    * `ImageGenerator.logged`
    * `ImageRequest.save`
    * `ImageRequest.IsSaved`
    * `ImageRequest.IsAccountedBy`

  Main results include:
    * `ImageRequest.isSaved_run_save`
    * `ImageRequest.generate_logged`
    * `ImageRequest.generate_isAccountedBy`
    * `ImageRequest.generate_makes_output`
-/

namespace Slideshow

------------------------------------------------------------
-- Calls of a Generator
------------------------------------------------------------

/- One call: the request, and the reply. -/
structure ImageCall where
  request : ImageRequest
  reply : Except Error Bytes

/- A generator that writes down its calls. -/
def ImageGenerator.logged
    {σ : Type}
    (generator : ImageGenerator σ) :
    ImageGenerator (σ × List ImageCall) :=
  fun request s =>
    let (reply, after) := generator request s.1
    (reply, (after, s.2 ++ [⟨request, reply⟩]))

namespace ImageRequest

open FileTree

variable {output : String}

section Accounts

variable [TempNaming]

------------------------------------------------------------
-- Replies
------------------------------------------------------------

/- Write a reply to a file, unless it is empty. -/
def save
    (output : String) :
    Except Error Bytes → FileM Error String
  | .error e => throw e
  | .ok [] => throw (.generation .emptyResponse)
  | .ok (byte :: bytes) => do
      Temp.write output (byte :: bytes)
      return output

/-
  A reply has been saved, or what kept it from that is the
  error.

  A reply without a picture is the error itself or an error
  of its own, and changes no files.  A picture is saved if
  it can be written.  It is all there is at the output then;
  beside it there are only new directories, so the temporary
  file is gone.  If it cannot be saved, the entry at the
  output is kept; until the error is dropped, it may hold
  the temporary file, and then there are only new
  directories.
-/
structure IsSaved
    (output : String)
    (reply : Except Error Bytes)
    (before after : FileTree)
    (result : Except Error String) : Prop where
  failed :
    ∀ e, reply = .error e →
      result = .error e ∧ after = before
  empty :
    reply = .ok [] →
      result = .error (.generation .emptyResponse) ∧
        after = before
  written :
    ∀ content, reply = .ok content → content ≠ [] →
      result =
        ((Temp.write output content).run before).1.map
          fun _ => output
  stored :
    ∀ path, result = .ok path →
      path = output ∧
        ∃ content place,
          content ≠ [] ∧ reply = .ok content ∧
            Temp.IsWritten output content before after place
  unstored :
    ∀ content e, reply = .ok content → content ≠ [] →
      result = .error e →
        Temp.IsUnwritten output content before after e ∧
          KeepsEntry output before (e.drop.run after).2

/- Saving a picture is writing it to the output. -/
theorem run_save_cons
    (output : String)
    (byte : UInt8)
    (bytes : Bytes)
    (tree : FileTree) :
    (save output (.ok (byte :: bytes))).run tree =
      (((Temp.write output (byte :: bytes)).run tree).1.map
          fun _ => output,
        ((Temp.write output (byte :: bytes)).run
          tree).2) := by
  rw [save, FileM.run_bind]
  rcases (Temp.write output (byte :: bytes)).run tree with
    ⟨_ | _, after⟩
  · rfl
  · rfl

/- Any reply is saved, or the error is why not. -/
theorem isSaved_run_save
    (output : String)
    (reply : Except Error Bytes)
    (before : FileTree) :
    IsSaved output reply before
      ((save output reply).run before).2
      ((save output reply).run before).1 := by
  rcases reply with e | _ | ⟨byte, bytes⟩
  · -- The reply is an error.
    rw [save, FileM.run_throw]
    constructor <;> simp
  · -- The reply is empty.
    rw [save, FileM.run_throw]
    constructor <;> simp
  · rw [run_save_cons]
    rcases hWrite :
      (Temp.write output (byte :: bytes)).run before with
      ⟨e | _, after⟩
    · have hUnwritten :=
        Temp.isUnwritten_of_run_write hWrite
      constructor
      case failed => simp
      case empty => simp
      case written => simp [hWrite]
      case stored => simp [Except.map]
      case unstored =>
        rintro _ _ ⟨⟩ - ⟨⟩
        exact ⟨hUnwritten, hUnwritten.dropped.keepsEntry⟩
    · rcases Temp.isWritten_of_run_write hWrite with
        ⟨place, hWritten⟩
      constructor
      case failed => simp
      case empty => simp
      case written => simp [hWrite]
      case stored =>
        rintro path ⟨⟩
        exact ⟨rfl, _, place, List.cons_ne_nil _ _, rfl,
          hWritten⟩
      case unstored => simp [Except.map]

------------------------------------------------------------
-- Accounts
------------------------------------------------------------

/- A generator is asked once, and its reply is saved. -/
theorem generate_eq
    {σ : Type}
    (generator : ImageGenerator σ)
    (request : ImageRequest)
    (output : String)
    (s : σ)
    (tree : FileTree) :
    request.generate generator output s tree =
      .ofFiles
        (save output
          (generator (request.withFiles tree) s).1)
        (generator (request.withFiles tree) s).2 tree := by
  unfold generate
  rcases generator (request.withFiles tree) s with
    ⟨e | _ | ⟨byte, bytes⟩, after⟩
  · rfl
  · rfl
  · rfl

/-
  Writing down the call changes neither the result nor the
  files.  It is one call, with the references to files that
  are there, and its reply is saved.
-/
theorem generate_logged
    {σ : Type}
    (generator : ImageGenerator σ)
    (request : ImageRequest)
    (output : String)
    (s : σ)
    (log : List ImageCall)
    (before : FileTree) :
    ∃ call last,
      call.request = request.withFiles before ∧
        generator call.request s = (call.reply, last) ∧
        request.generate generator output s before =
          .ofFiles (save output call.reply) last before ∧
        request.generate generator.logged output (s, log)
            before =
          .ofFiles (save output call.reply)
            (last, log ++ [call]) before := by
  rcases hReply :
    generator (request.withFiles before) s with
    ⟨reply, last⟩
  have hLogged :
      generator.logged (request.withFiles before) (s, log) =
        (reply, (last,
          log ++ [⟨request.withFiles before, reply⟩])) := by
    simp only [ImageGenerator.logged, hReply]
  refine ⟨⟨request.withFiles before, reply⟩, last, rfl,
    hReply, ?_, ?_⟩
  · rw [generate_eq, hReply]
  · rw [generate_eq, hLogged]

/-
  One call accounts for the result of a request: it is for
  the same picture with the references to files that are
  there, in order, and its reply is saved.
-/
structure IsAccountedBy
    (request : ImageRequest)
    (output : String)
    (before after : FileTree)
    (result : Except Error String)
    (call : ImageCall) : Prop where
  asked :
    call.request =
      { request with
        references :=
          request.references.filter before.isFile }
  saved : IsSaved output call.reply before after result

/-
  A generator is called once for a picture, and the call
  accounts for the result and for the files.
-/
theorem generate_isAccountedBy
    {σ : Type}
    (generator : ImageGenerator σ)
    (request : ImageRequest)
    (output : String)
    (s : σ)
    (before : FileTree) :
    ∃ call last result after,
      generator call.request s = (call.reply, last) ∧
        request.generate generator output s before =
          ⟨result, last, after⟩ ∧
        request.generate generator.logged output (s, [])
            before =
          ⟨result, (last, [call]), after⟩ ∧
        request.IsAccountedBy output before after result
          call := by
  rcases request.generate_logged generator output s []
    before with
    ⟨call, last, hAsked, hReply, hRun, hLogged⟩
  exact ⟨call, last, _, _, hReply, hRun, hLogged,
    ⟨hAsked, isSaved_run_save output call.reply before⟩⟩

end Accounts

/- A request with a reference to a file and one to none. -/
def withReferences : ImageRequest where
  prompt := "A cat."
  references := ["a.png", "b.png"]
  aspect := .square
  model := "model"

/- A generator that counts its pictures of one byte. -/
def counting : ImageGenerator Nat :=
  fun _ n => (.ok [7], n + 1)

section Examples

/- Temporary files are numbered in what follows. -/
attribute [local instance] Temp.numbered

/- The missing reference is dropped and the picture saved. -/
theorem generate_isAccountedBy_withReferences :
    let before :=
      FileTree.empty.insert ["a.png"] (.file [1] 0)
    ∃ call after place,
      withReferences.generate counting.logged "c/d.png"
          (0, []) before =
        ⟨.ok "c/d.png", (1, [call]), after⟩ ∧
      call.request =
        { withReferences with references := ["a.png"] } ∧
      call.reply = .ok [7] ∧
      Temp.IsWritten "c/d.png" [7] before after place := by
  intro before
  rcases generate_isAccountedBy counting withReferences
    "c/d.png" 0 before with
    ⟨call, last, result, after, hReply, hRun, hLogged,
      hAsked, hSaved⟩
  have hOk : result.isOk = true := by
    have hDone :
        (withReferences.generate counting "c/d.png" 0
          before).result.isOk = true := by
      decide +kernel
    rwa [hRun] at hDone
  rcases Outcome.exists_eq_ok_of_isOk hOk with ⟨path, rfl⟩
  rcases hSaved.stored path rfl with
    ⟨rfl, content, place, -, hContent, hWritten⟩
  rcases Prod.mk.inj hReply with ⟨hBytes, rfl⟩
  rw [← hBytes] at hContent
  cases hContent
  have hReferences :
      withReferences.references.filter before.isFile =
        ["a.png"] := by
    decide +kernel
  rw [hReferences] at hAsked
  exact ⟨call, after, place, hLogged, hAsked, hBytes.symm,
    hWritten⟩

/-
  An output that is its own missing directory is there after
  a picture could not be saved, where nothing was before.
-/
theorem generate_makes_output :
    let done := withReferences.generate counting "a/../a" 0
      .empty
    (counting (withReferences.withFiles .empty) 0).1 =
        .ok [7] ∧
      (∃ e, done.result = .error e) ∧
      FileTree.empty.nodeAt? "a/../a" = none ∧
      done.tree.nodeAt? "a/../a" = some .directory := by
  refine ⟨rfl, Outcome.exists_eq_error_of_isOk ?_,
    by decide, ?_⟩
  · decide +kernel
  · decide +kernel

end Examples

end ImageRequest

end Slideshow
