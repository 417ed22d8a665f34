import GlPlayback.Command.Decode

/-!
Which members of an object a command is read from. Every kind of command asks for arguments of its
own by name, so neither the order of the members nor members of other names matter.
-/
namespace GlPlayback

open Json

namespace ArgumentLookup

/-- Whoever asks for one of these names gets the same answer from both. -/
def Agree (names : List String) (look look' : ArgumentLookup) : Prop :=
  ∀ asked, asked ⊆ names → look' asked = look asked

variable {names : List String} {look look' : ArgumentLookup}

def imageNames : List String :=
  ["level", "internal_format", "width", "height", "border", "format", "data_type"]

def pointerNames : List String :=
  ["index", "size", "type", "stride", "offset"]

end ArgumentLookup

namespace Action

open ArgumentLookup

/-- The names that the arguments of a command may go by, aliases included. -/
def argumentNames : Action → List String
  | viewport _ => ["x", "y", "width", "height"]
  | enable _ | disable _ => "mask" :: capabilityNames.map Prod.fst
  | clearColor _ | blendColor _ => ["r", "g", "b", "a"]
  | clear .. => ["color", "depth", "stencil"]
  | frontFace _ | cullFace _ | blendEquation _ => ["mode"]
  | depthFunc _ => ["func"]
  | depthMask _ => ["flag"]
  | depthRange .. => ["z_near", "z_far"]
  | blendEquationSeparate .. => ["mode_rgb", "mode_alpha"]
  | blendFunc .. => ["s_factor", "d_factor"]
  | blendFuncSeparate _ => ["src_rgb", "dst_rgb", "src_alpha", "dst_alpha"]
  | pixelStore .. => ["pname", "param"]
  | create (.shader _) _ => ["resource", "type"]
  | create .. => ["resource"]
  | bindTexture .. => ["target", "texture"]
  | activeTexture _ => ["texture"]
  | generateMipmap _ => ["target"]
  | texImage2D .. => "target" :: imageNames
  | texImage3D .. => "target" :: "depth" :: imageNames
  | texStorage2D .. => ["target", "levels", "internal_format", "width", "height"]
  | texStorage3D .. => ["target", "levels", "internal_format", "width", "height", "depth"]
  | texParameterInt .. | texParameterFloat .. | texParameterToken .. =>
      ["target", "pname", "param"]
  | shaderSource .. => ["shader", "source"]
  | compileShader _ | deleteShader _ => ["shader"]
  | attachShader .. => ["program", "shader"]
  | bindAttributeLocation .. => ["program", "index", "name"]
  | linkProgram _ | useProgram _ => ["program"]
  | uniform _ | uniformMatrix _ => ["name"]
  | uniformBlockBinding .. => ["program", "uniform_block_name", "uniform_block_binding"]
  | bindBuffer .. => ["target", "buffer"]
  | bindBufferBase .. => ["target", "index", "buffer"]
  | bufferData .. => ["target", "usage", "update_info", "size"]
  | bufferSubData .. => ["target", "dst_byte_offset", "src_offset", "size"]
  | bufferSubDataAt .. => ["target", "dst_byte_offset", "src_offset"]
  | createUniformBuffer .. => ["buffer", "program", "block_name", "usage"]
  | bindVertexArray _ => ["vertex_array", "vao"]
  | attributePointer .. => "normalized" :: pointerNames
  | attributeIPointer _ => pointerNames
  | enableAttribute _ | disableAttribute _ | attributeFloats _ | attributeInts _ => ["index"]
  | bindFramebuffer .. => ["target", "framebuffer"]
  | framebufferTexture2D .. =>
      ["target", "attachement", "attachment", "textarget", "texture", "level"]
  | drawBuffers _ => ["buffers"]
  | drawArrays .. => ["mode", "type", "first", "count"]
  | drawArraysInstanced .. => ["mode", "type", "first", "count", "instance_count"]
  | drawElements .. => ["mode", "count", "type", "offset"]
  | drawElementsInstanced .. => ["mode", "count", "type", "offset", "instance_count"]
  | unknown => []

theorem good_of_bind {α : Type} {good : Action → Prop} {x : Option α} {f : α → Option Action}
    (hf : ∀ a, ∀ action ∈ f a, good action) : ∀ action ∈ x >>= f, good action := by
  intro action haction
  obtain ⟨a, -, hmade⟩ := Option.bind_eq_some_iff.mp haction
  exact hf a action hmade

theorem good_of_pure {good : Action → Prop} {action : Action} (h : good action) :
    ∀ made ∈ (pure action : Option Action), good made := by
  rintro _ ⟨⟩
  exact h

/-- The reader asks for the arguments of what it makes, and for nothing else. -/
def AsksByName (read : ArgumentLookup → Option Action) : Prop :=
  ∀ look, ∀ action ∈ read look, ∀ look', Agree action.argumentNames look look' →
    read look' = read look

theorem asksByName_of_mem : ∀ kind ∈ readers, AsksByName kind.2 := by
  simp only [readers, List.forall_mem_cons, List.not_mem_nil, false_implies, implies_true, and_true,
    creationOf, AsksByName]
  repeat' refine And.intro ?_ ?_
  all_goals
    intro look
    repeat refine good_of_bind fun _ => ?_
    refine good_of_pure fun look' h => ?_
    simp only [Agree, argumentNames, imageNames, pointerNames, capabilityNames, List.map_cons] at h
    simp [need, needEither, orElse, word, int32, resource, resourceOrNone, flag, int32OrZero,
      countOrZero, countOrAll, color, capabilities, attributeIndex, image, pointer, drawMode,
      capabilityNames, h _]

theorem asksByName_of_reader? {tag : Json} {read : ArgumentLookup → Option Action}
    (hread : reader? tag = some read) : AsksByName read := by
  have hkind {kind : Option (List String × (ArgumentLookup → Option Action))}
      (hmem : ∀ found ∈ kind, found ∈ readers) :
      AsksByName ((kind.map (·.2)).getD fun _ => some .unknown) := by
    cases kind with
    | none => exact fun _ _ _ _ _ => rfl
    | some found => exact asksByName_of_mem found (hmem found rfl)
  unfold reader? at hread
  split at hread
  · cases hread
    exact hkind fun _ => List.mem_of_find?_eq_some
  · obtain ⟨kind, hplace, hmade⟩ := Option.bind_eq_some_iff.mp hread
    cases hmade
    obtain ⟨place, -, rfl⟩ := Option.map_eq_some_iff.mp hplace
    exact hkind fun _ => List.mem_of_getElem?

end Action

section Members

variable {known asked : List String} {members members' : List (String × Json)}

/-- The second object has the members of the first one in any order, and perhaps further ones, none
of which goes by a known name. -/
def WithStrangers (known : List String) (members members' : List (String × Json)) : Prop :=
  ∃ strangers, members'.Perm (members ++ strangers) ∧ ∀ m ∈ strangers, m.1 ∉ known

theorem WithStrangers.filter_perm (h : WithStrangers known members members')
    (hasked : asked ⊆ known) :
    (members'.filter fun m => asked.contains m.1).Perm
      (members.filter fun m => asked.contains m.1) := by
  obtain ⟨strangers, hperm, hstrange⟩ := h
  have hnone : (strangers.filter fun m => asked.contains m.1) = [] := by
    rw [List.filter_eq_nil_iff]
    intro m hm hcontains
    exact hstrange m hm (hasked (List.contains_iff_mem.mp hcontains))
  have hfiltered := hperm.filter fun m => asked.contains m.1
  rwa [List.filter_append, hnone, List.append_nil] at hfiltered

theorem WithStrangers.member?_eq (h : WithStrangers known members members')
    (hasked : asked ⊆ known) : member? asked members' = member? asked members := by
  have hperm := h.filter_perm hasked
  rw [member?, member?]
  generalize members.filter (fun m => asked.contains m.1) = found at hperm
  generalize members'.filter (fun m => asked.contains m.1) = found' at hperm
  match found with
  | [] => rw [List.perm_nil.mp hperm]
  | [m] => rw [List.perm_singleton.mp hperm]
  | m :: n :: rest =>
      match found' with
      | [] | [_] => exact absurd hperm.length_eq (by simp)
      | _ :: _ :: _ => rfl

theorem PayloadRef.ofJson?_eq
    (h : WithStrangers ["index", "dtype", "shape"] members members') :
    PayloadRef.ofJson? (.object members') = PayloadRef.ofJson? (.object members) := by
  simp only [ofJson?, fields?, List.mapM_cons, List.mapM_nil]
  rw [h.member?_eq (by simp), h.member?_eq (by simp), h.member?_eq (by simp)]

/-- How a command follows from the members of an object. -/
theorem Command.ofJson?_eq_some_iff {c : Command} : ofJson? (.object members) = some c ↔
    ∃ tag read given, member? ["cmd"] members = some (some tag) ∧
      Action.reader? tag = some read ∧ read (fun asked => member? asked members) = some c.action ∧
      member? ["buffer_metadata"] members = some given ∧
      optional PayloadRef.ofJson? given = some c.payload := by
  simp only [ofJson?, required, Option.bind_eq_bind, Option.bind_eq_some_iff]
  constructor
  · rintro ⟨_, htag, read, ⟨tag, rfl, hread⟩, action, haction, given, hgiven, payload, hpayload,
      ⟨⟩⟩
    exact ⟨tag, read, given, htag, hread, haction, hgiven, hpayload⟩
  · rintro ⟨tag, read, given, htag, hread, haction, hgiven, hpayload⟩
    exact ⟨_, htag, read, ⟨tag, rfl, hread⟩, _, haction, given, hgiven, _, hpayload, rfl⟩

theorem member?_other {name : String} (hname : name ∉ asked) (value value' : Json)
    (before after : List (String × Json)) : member? asked (before ++ (name, value') :: after) =
      member? asked (before ++ (name, value) :: after) := by
  have hskip (value : Json) : ((name, value) :: after).filter (fun m => asked.contains m.1) =
      after.filter fun m => asked.contains m.1 :=
    List.filter_cons_of_neg (mt List.contains_iff_mem.mp hname)
  simp only [member?, List.filter_append, hskip]

theorem member?_replace {name : String} (hname : name ∈ asked) {value : Json}
    {before after : List (String × Json)} {found : Option Json}
    (hfound : member? asked (before ++ (name, value) :: after) = some found) :
    found = some value ∧
      ∀ value', member? asked (before ++ (name, value') :: after) = some (some value') := by
  have htake (value : Json) : ((name, value) :: after).filter (fun m => asked.contains m.1) =
      (name, value) :: after.filter fun m => asked.contains m.1 :=
    List.filter_cons_of_pos (List.contains_iff_mem.mpr hname)
  simp only [member?, List.filter_append, htake] at hfound ⊢
  generalize before.filter (fun m => asked.contains m.1) = lead at hfound ⊢
  generalize after.filter (fun m => asked.contains m.1) = rest at hfound ⊢
  match lead, rest with
  | [], [] =>
      cases hfound
      exact ⟨rfl, fun _ => rfl⟩
  | [], _ :: _ | [_], _ | _ :: _ :: _, _ => cases hfound

theorem Action.payload_not_argument (action : Action) :
    "buffer_metadata" ∉ action.argumentNames := by
  fun_cases argumentNames action <;> decide

/-- A command is read from the members that it knows. It stays the same in any order of the members
and among any further ones that are neither `cmd` nor `buffer_metadata` nor an argument of its own;
and so it does if that happens inside of `buffer_metadata`. -/
theorem Command.ofJson?_strangers {c : Command} (hc : ofJson? (.object members) = some c) :
    (∀ members', WithStrangers ("cmd" :: "buffer_metadata" :: c.action.argumentNames) members
      members' → ofJson? (.object members') = some c) ∧
    ∀ before inner inner' after, members = before ++ ("buffer_metadata", .object inner) :: after →
      WithStrangers ["index", "dtype", "shape"] inner inner' →
      ofJson? (.object (before ++ ("buffer_metadata", .object inner') :: after)) = some c := by
  obtain ⟨tag, read, given, htag, hread, haction, hgiven, hpayload⟩ := ofJson?_eq_some_iff.mp hc
  -- The arguments are read again wherever all of them are the same.
  have hread' {members' : List (String × Json)} (hargs : ∀ asked, asked ⊆ c.action.argumentNames →
      member? asked members' = member? asked members) :
      read (fun asked => member? asked members') = some c.action :=
    (Action.asksByName_of_reader? hread _ _ haction _ hargs).trans haction
  constructor
  · intro members' hstrange
    refine ofJson?_eq_some_iff.mpr ⟨tag, read, given, ?_, hread, hread' fun asked hasked => ?_, ?_,
      hpayload⟩
    · rw [hstrange.member?_eq (by simp), htag]
    · exact hstrange.member?_eq fun name hname =>
        List.mem_cons_of_mem _ (List.mem_cons_of_mem _ (hasked hname))
    · rw [hstrange.member?_eq (by simp), hgiven]
  · rintro before inner inner' after rfl hstrange
    obtain ⟨rfl, hreplaced⟩ := member?_replace (List.mem_singleton.mpr rfl) hgiven
    refine ofJson?_eq_some_iff.mpr ⟨tag, read, _, ?_, hread, hread' fun asked hasked => ?_,
      hreplaced _, ?_⟩
    · rw [member?_other (by simp), htag]
    · exact member?_other (fun hname => c.action.payload_not_argument (hasked hname)) _ _ _ _
    · rw [← hpayload]
      exact congrArg (Option.map some) (PayloadRef.ofJson?_eq hstrange)

/-- A vertex array under the other name of the argument, with a payload: the members the other way
round and behind one that no command knows. -/
theorem Command.ofJson?_strangers_alias :
    let members := [("cmd", .string "bindVertexArray"), ("vao", Json.nat 3),
      ("buffer_metadata", .object [("index", .nat 2), ("dtype", .string "float32")])]
    ofJson? (.object members) = some ⟨.bindVertexArray 3, some ⟨2, "float32", []⟩⟩ ∧
      ofJson? (.object (("vertexArray", .null) :: members.reverse)) =
        some ⟨.bindVertexArray 3, some ⟨2, "float32", []⟩⟩ := by
  intro members
  have hread : ofJson? (.object members) = some ⟨.bindVertexArray 3, some ⟨2, "float32", []⟩⟩ := rfl
  refine ⟨hread, (ofJson?_strangers hread).1 _ ⟨[("vertexArray", .null)], ?_, by decide⟩⟩
  exact (members.reverse_perm.cons _).trans (List.perm_append_singleton _ _).symm

end Members

end GlPlayback
