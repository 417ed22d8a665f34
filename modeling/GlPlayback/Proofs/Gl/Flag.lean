import GlPlayback.Proofs.Gl.Footprint

/-!
The errors that calls raise, and the flag that keeps the first of them until it is read.
-/
namespace GlPlayback

theorem GlError.ofCode?_flagCode (flag : Option GlError) :
    GlError.ofCode? (GlError.flagCode flag) = flag := by
  cases flag with
  | none => rfl
  | some e => cases e <;> rfl

namespace Context

/-- The error that a call raises in a context, if it is refused with one. -/
def raises (ctx : Context) (call : Call) : Option GlError :=
  match (ctx.countCall call.name).attempt call with
  | .error (.error e) => some e
  | _ => none

/-- The errors that calls raise one after the other. -/
def errorsOf (ctx : Context) : List Call → List GlError
  | [] => []
  | call :: rest => (ctx.raises call).toList ++ (ctx.issue call).errorsOf rest

variable {ctx : Context}

theorem errorsOf_singleton (call : Call) : ctx.errorsOf [call] = (ctx.raises call).toList :=
  List.append_nil _

/-- A call raises its error unless an earlier one still stands. -/
theorem error_issue {call : Call} (hcall : call ≠ .getError) :
    (ctx.issue call).error = ctx.error.or (ctx.raises call) := by
  have hkeeps : .error ∉ call.touches := fun h => hcall (call.error_mem_touches_iff.mp h)
  have hwithin := (ctx.countCall call.name).attempt_within call
  simp only [issue, exec, raises]
  cases h : (ctx.countCall call.name).attempt call with
  | ok answered =>
      refine (hwithin.value h .error hkeeps).trans ?_
      exact Option.or_none.symm
  | error refusal =>
      cases refusal with
      | error e => exact Option.or_eq_orElse.symm
      | impossible => exact Option.or_none.symm

/-- Of all the errors that calls raise, the flag keeps the first. -/
theorem error_issueAll {calls : List Call} (hcalls : ∀ call ∈ calls, call ≠ .getError) :
    (ctx.issueAll calls).error = ctx.error.or (ctx.errorsOf calls).head? := by
  induction calls generalizing ctx with
  | nil => exact Option.or_none.symm
  | cons call rest ih =>
      have hrest : ((ctx.issue call).issueAll rest).error =
          (ctx.issue call).error.or ((ctx.issue call).errorsOf rest).head? :=
        ih fun other hother => hcalls other (List.mem_cons_of_mem call hother)
      refine hrest.trans ?_
      rw [error_issue (hcalls call List.mem_cons_self), errorsOf]
      rw [Option.or_assoc]
      cases ctx.raises call <;> simp

/-- Reading the error answers with its code and clears the flag. -/
theorem exec_getError : (ctx.exec .getError).1 = GlError.flagCode ctx.error ∧
    (ctx.issue .getError).error = none :=
  ⟨rfl, rfl⟩

/-- A call that leaves an error behind where none stood was refused, and was counted. -/
theorem issue_of_error {call : Call} {e : GlError} (hclear : ctx.error = none)
    (herror : (ctx.issue call).error = some e) :
    ctx.issue call = { ctx.countCall call.name with error := some e } := by
  have hcall : call ≠ .getError := by
    rintro rfl
    cases exec_getError.2.symm.trans herror
  have hraises : ctx.raises call = some e := by
    rw [error_issue hcall, hclear] at herror
    exact herror
  simp only [raises] at hraises
  simp only [issue, exec]
  cases h : (ctx.countCall call.name).attempt call with
  | ok answered => simp [h] at hraises
  | error refusal =>
      cases refusal with
      | impossible => simp [h] at hraises
      | error cause =>
          cases (by simpa [h] using hraises : cause = e)
          have hcounted : (ctx.countCall call.name).error = none := hclear
          simp only [raise, hcounted]
          rfl

/-- What a call without an answer comes to: it is counted, it may raise an error, and these are the
objects after it. -/
structure Effect (ctx : Context) (call : Call) (raised : Option GlError)
    (objects : ObjectTables) : Prop where
  raises_eq : ctx.raises call = raised
  issue_eq : ctx.issue call =
    { ctx.countCall call.name with objects, error := ctx.error.or raised }

theorem effect_of_ok {call : Call} {reply : call.Reply} {objects : ObjectTables}
    (h : (ctx.countCall call.name).attempt call =
      .ok (reply, { ctx.countCall call.name with objects })) :
    ctx.Effect call none objects := by
  refine ⟨by simp only [raises, h], ?_⟩
  simp only [issue, exec, h, Option.or_none]
  rfl

theorem effect_of_refused {call : Call} {e : GlError}
    (h : (ctx.countCall call.name).attempt call = .error (.error e)) :
    ctx.Effect call (some e) ctx.objects := by
  refine ⟨by simp only [raises, h], ?_⟩
  simp only [issue, exec, h, raise, Option.or_eq_orElse]
  rfl

theorem callCount_countCall (ctx : Context) (name other : String) :
    (ctx.countCall name).callCount other =
      ctx.callCount other + if other = name then 1 else 0 := by
  simp only [callCount, countCall, Table.get?_insert]
  by_cases hname : name = other
  · subst hname
    simp
  · simp [hname, Ne.symm hname]

end Context

end GlPlayback
