/-!
# Defaults

What holds where an author says nothing.
-/
namespace Storyboard.Defaults

/-- Frames in a second. -/
def fps : Float := 30.0

/-- Width of a video in pixels. -/
def width : Int := 1280

/-- Height of a video in pixels. -/
def height : Int := 720

/-- Length of a transition in seconds. -/
def transitionSeconds : Float := 1.0

/-- Words in a minute of speech. -/
def wordsPerMinute : Float := 165.0

/-- The least time a text takes that is not blank, in seconds. -/
def leastSpokenSeconds : Float := 0.25

/-- The seed of a shuffled stagger. -/
def staggerSeed : Int := 42

/-- The mass on a spring. -/
def springMass : Float := 1.0

/-- How hard a spring pulls. -/
def springStiffness : Float := 100.0

/-- How much a spring is held back. -/
def springDamping : Float := 10.0

/-- The least mass on a spring. -/
def leastSpringMass : Float := 0.0001

/-- The least pull of a spring. -/
def leastSpringStiffness : Float := 0.0001

/-- How far a slide goes, in pixels. -/
def slideDistance : Float := 100.0

/-- How far a spring effect rises, in pixels. -/
def springRise : Float := 40.0

/-- Characters typed in a frame. -/
def charsPerFrame : Float := 0.5

/-- Frames between two changes of a blinking cursor. -/
def blinkFrames : Int := 15

/-- Frames in a second of the principles that count frames. -/
def principleFps : Float := 30.0

/-- Height of an object when it is squashed most. -/
def squashRatio : Float := 0.6

/-- Height of an object when it is stretched most. -/
def stretchRatio : Float := 1.4

/-- How hard the spring behind a wind-up pulls. -/
def windUpStiffness : Float := 300.0

/-- How much the spring behind a wind-up is held back. -/
def windUpDamping : Float := 15.0

/-- How much a trailing object is drawn along. -/
def followDrag : Float := 0.3

/-- How far a trailing object swings out. -/
def followOvershoot : Float := 0.1

/-- How far an arc rises, in pixels. -/
def arcHeight : Float := 100.0

/-- Beats in a second. -/
def beatsPerSecond : Float := 4.0

end Storyboard.Defaults
