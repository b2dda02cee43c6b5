import Turtle.Clock.Gauge
import Turtle.Main
import Turtle.Proofs.Completion
import Turtle.Proofs.Course
import Turtle.Proofs.Duration
import Turtle.Proofs.Independence
import Turtle.Proofs.Intake
import Turtle.Proofs.Isolation
import Turtle.Proofs.Json.RoundTrip
import Turtle.Proofs.Layers
import Turtle.Proofs.Metering
import Turtle.Proofs.Moving
import Turtle.Proofs.Operands
import Turtle.Proofs.Pacing
import Turtle.Proofs.Printing
import Turtle.Proofs.ReadBack
import Turtle.Proofs.Refusals
import Turtle.Proofs.Replay
import Turtle.Proofs.Speeds
import Turtle.Proofs.Tempo
import Turtle.Proofs.Tenancy
import Turtle.Proofs.Turning
import Turtle.Proofs.Window
