import RegionCapture.Program.Regions
/-!
# The program for several regions can be made

Every input that the program means to set is declared (`resolve_regions`).
-/

namespace RegionCapture.Program

theorem declared_attribute_vertexGlslText :
    declared .attribute vertexGlslText = ["vertex_pos", "tex_coords_in"] := by
  -- the text is read line by line, as comparing characters is cheaper than decoding a whole string
  simp only [declared, vertexGlslText, String.toList_intercalate, List.map_cons, List.map_nil,
    String.reduceToList]
  decide +kernel

theorem declared_uniform_vertexGlslText :
    declared .uniform vertexGlslText = ["tex_matrix", "user_matrix"] := by
  simp only [declared, vertexGlslText, String.toList_intercalate, List.map_cons, List.map_nil,
    String.reduceToList]
  decide +kernel

theorem declared_uniform_fragmentGlslText : declared .uniform fragmentGlslText = ["tex"] := by
  simp only [declared, fragmentGlslText, String.toList_intercalate, List.map_cons, List.map_nil,
    String.reduceToList]
  decide +kernel

/-- The inputs of the program and where they are. -/
theorem resolve_regions :
    regions.resolve = .ok ⟨[("vertex_pos", 0), ("tex_coords_in", 1)],
      [("tex", 2), ("tex_matrix", 0), ("user_matrix", 1)]⟩ := by
  simp only [resolve, declaredAttributes, declaredUniforms, regions,
    declared_attribute_vertexGlslText, declared_uniform_vertexGlslText,
    declared_uniform_fragmentGlslText]
  rfl

end RegionCapture.Program
