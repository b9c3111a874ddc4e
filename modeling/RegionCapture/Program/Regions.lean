import RegionCapture.Program
import RegionCapture.Scalar
/-!
# The program for several regions

The vertex stage passes a quad over the whole viewport through and sends its texture coordinates
through the two matrices. The fragment stage samples the input, and writes transparent black
wherever a coordinate leaves the unit interval.
-/

namespace RegionCapture.Program

/-- The GLSL vertex stage: the quad passes through, and its texture coordinates are transformed. -/
def vertexGlslText : String := "\n".intercalate
  ["#version 100",
   "attribute vec4 vertex_pos;",
   "attribute vec4 tex_coords_in;",
   "varying vec2 tex_coords;",
   "uniform mat4 tex_matrix;",
   "uniform mat4 user_matrix;",
   "void main() \x7b",
   "    gl_Position = vertex_pos;",
   "    tex_coords = (tex_matrix * user_matrix * tex_coords_in).xy;",
   "\x7d",
   ""]

/-- The GLSL fragment stage: the input is sampled, and what lies outside of it is transparent. -/
def fragmentGlslText : String := "\n".intercalate
  ["#version 100",
   "#extension GL_OES_EGL_image_external : require",
   "precision highp float;",
   "uniform samplerExternalOES tex;",
   "varying vec2 tex_coords;",
   "void main() \x7b",
   "    if (tex_coords.x >= 0.0 && tex_coords.x <= 1.0",
   "            && tex_coords.y >= 0.0 && tex_coords.y <= 1.0) \x7b",
   "        gl_FragColor = texture2D(tex, tex_coords);",
   "    \x7d else \x7b",
   "        gl_FragColor = vec4(0.0, 0.0, 0.0, 0.0);",
   "    \x7d",
   "\x7d",
   ""]

/-- Both stages as one WGSL module. -/
def wgslText : String := "\n".intercalate
  ["",
   "struct VsIn \x7b",
   "  @location(0) vertex_pos: vec2<f32>,",
   "  @location(1) tex_coords_in: vec2<f32>,",
   "\x7d;",
   "",
   "struct VsOut \x7b",
   "  @builtin(position) pos: vec4<f32>,",
   "  @location(0) tex_coords: vec2<f32>,",
   "\x7d;",
   "",
   "@group(0) @binding(0) var tex: texture_2d<f32>;",
   "@group(0) @binding(1) var tex_sampler: sampler;",
   "@group(0) @binding(2) var<uniform> tex_matrix: mat4x4<f32>;",
   "@group(0) @binding(3) var<uniform> user_matrix: mat4x4<f32>;",
   "",
   "@vertex",
   "fn vs(in: VsIn) -> VsOut \x7b",
   "  var o: VsOut;",
   "  o.pos = vec4<f32>(in.vertex_pos, 0.0, 1.0);",
   "  o.tex_coords = (tex_matrix * user_matrix * vec4<f32>(in.tex_coords_in, 0.0, 1.0)).xy;",
   "  return o;",
   "\x7d",
   "",
   "@fragment",
   "fn fs(in: VsOut) -> @location(0) vec4<f32> \x7b",
   "  let c = textureSample(tex, tex_sampler, in.tex_coords);",
   "  let inside = all(in.tex_coords >= vec2<f32>(0.0)) && all(in.tex_coords <= vec2<f32>(1.0));",
   "  return select(vec4<f32>(0.0), c, inside);",
   "\x7d",
   ""]

/-- The program that draws every region. -/
def regions : Program where
  label := "splitcap_multi_region"
  vertexGlsl := vertexGlslText
  fragmentGlsl := fragmentGlslText
  wgsl := wgslText
  attributes := ["vertex_pos", "tex_coords_in"]
  uniforms := ["tex", "tex_matrix", "user_matrix"]

/-- The corners of the quad in device coordinates, as a triangle strip. -/
def quadCorners {L : Type} [Scalar L] : List (L × L) := [(-1, -1), (1, -1), (-1, 1), (1, 1)]

/-- The texture coordinates of the same corners. -/
def quadCoordinates {L : Type} [Scalar L] : List (L × L) := [(0, 0), (1, 0), (0, 1), (1, 1)]

end RegionCapture.Program
