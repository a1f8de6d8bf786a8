import UscopeDriver.SignedInputs
import UscopeDriver.Muting
import UscopeDriver.Cache
import UscopeDriver.Scope
import UscopeDriver.MutedRuns
import UscopeDriver.FreeRunning
import UscopeDriver.DividerSearch
import UscopeDriver.Generators
import UscopeDriver.Enabling
import UscopeDriver.MappingWords
import UscopeDriver.MemoryMap
import UscopeDriver.Connector
import UscopeDriver.Timing
import UscopeDriver.AddressMaps
import UscopeDriver.RegisterWrites
import UscopeDriver.Payload
import UscopeDriver.ScopeSamples
import UscopeDriver.Serving
import UscopeDriver.Acquisition
import UscopeDriver.BusMap
import UscopeDriver.Narrowing
import UscopeDriver.ChannelCounts
import UscopeDriver.CustomInputs
import UscopeDriver.ConstantInputs
import UscopeDriver.SessionRuns
import UscopeDriver.Leftovers
import UscopeDriver.Refusals
import UscopeDriver.ProgramMemories
import UscopeDriver.Redeployment
import UscopeDriver.Services
import UscopeDriver.RunControl
import UscopeDriver.RegisterService
import UscopeDriver.HilService
import UscopeDriver.PlatformService
import UscopeDriver.CustomRuns
