import ParameterServer.Record.Json
import ParameterServer.Config.Logging
import ParameterServer.TableServer.Json
import ParameterServer.Simulation.ScriptedNetwork
import ParameterServer.Simulation.Step
import ParameterServer.Proofs.Queue.Trace
import ParameterServer.Proofs.Cluster.Linearization
import ParameterServer.Proofs.TableServer.Staleness
import ParameterServer.Proofs.Queue.Fairness
import ParameterServer.Proofs.Queue.Waiting
import ParameterServer.Proofs.Queue.Clients
import ParameterServer.Proofs.Queue.Agreement
import ParameterServer.Proofs.Cluster.Replies
import ParameterServer.Proofs.Cluster.Capacity
import ParameterServer.Proofs.Record
import ParameterServer.Proofs.Engine.Errors
import ParameterServer.Proofs.Engine.Halting
import ParameterServer.Proofs.Engine.Stopped
import ParameterServer.Proofs.Engine.Barrier
import ParameterServer.Proofs.SendTracker.History
import ParameterServer.Proofs.SendTracker.Order
import ParameterServer.Proofs.Queue.Representation
import ParameterServer.Proofs.Queue.Storage
import ParameterServer.Proofs.Queue.Polling
import ParameterServer.Proofs.Queue.Draining
import ParameterServer.Proofs.TableServer.Consultation
import ParameterServer.Proofs.Engine.Awaiting
import ParameterServer.Proofs.ResponseTable.Stranded
import ParameterServer.Proofs.TableServer.Checkpoints
import ParameterServer.Proofs.TableServer.Statistics
import ParameterServer.Proofs.Engine.Broadcast
import ParameterServer.Proofs.Engine.Callbacks
import ParameterServer.Proofs.Config.Engine
import ParameterServer.Proofs.Transport.Inbox
import ParameterServer.Proofs.SendTracker.Storage
import ParameterServer.Proofs.Engine.Decoding
